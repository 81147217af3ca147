import MistralrsProxy.Bytes

/-! The headers that a proxy must not pass on. Which fields are meant is partly said by the fields themselves: every
`Connection` field names more of them, in bytes that come from the other side. Reading a field name is a parameter. -/

open Bytes

namespace MistralrsProxy

/-- A field name, which is kept in lower case. -/
abbrev HeaderName := { name : List UInt8 // name.map toAsciiLowercase = name }

/-- The fields of a header map in order; a name can occur more than once. -/
abbrev HeaderFields := List (HeaderName × List UInt8)

/-- The names that `HeaderName::from_bytes` takes; the empty one is none of them. -/
structure HeaderNames where
  valid : List UInt8 → Bool
  empty : valid [] = false

/-- `HeaderName::from_bytes`: a name that is taken is put in lower case. -/
def HeaderNames.fromBytes (names : HeaderNames) (bytes : List UInt8) : Option HeaderName :=
  if names.valid bytes then some ⟨bytes.map toAsciiLowercase, by simp [Function.comp_def]⟩ else none

/-- The bytes of an ASCII text. -/
def asciiBytes (text : String) : List UInt8 := text.toList.map fun char => UInt8.ofNat char.toNat

/-- `HeaderName::from_static`. -/
def HeaderName.fromStatic (text : String) : HeaderName :=
  ⟨(asciiBytes text).map toAsciiLowercase, by simp [Function.comp_def]⟩

namespace HeaderFields

def getAll (name : HeaderName) (fields : HeaderFields) : List (List UInt8) :=
  fields.filterMap fun field => if field.1 = name then some field.2 else none

def remove (fields : HeaderFields) (name : HeaderName) : HeaderFields :=
  fields.filter fun field => decide (field.1 ≠ name)

end HeaderFields

def connection : HeaderName := .fromStatic "connection"

/-- The names that are hop-by-hop by themselves. -/
def hopByHopNames : List HeaderName :=
  [connection, .fromStatic "keep-alive", .fromStatic "proxy-authenticate", .fromStatic "proxy-authorization",
    .fromStatic "te", .fromStatic "trailer", .fromStatic "transfer-encoding", .fromStatic "upgrade",
    .fromStatic "proxy-connection"]

/-- One element of a `Connection` field, trimmed; a blank one is skipped. No outer result stands for a panic. -/
def connectionElement (name : List UInt8) : Option (Option (List UInt8)) :=
  match name.findIdx? fun byte => !isAsciiWhitespace byte with
  | none => some none
  | some first =>
      match rposition (fun byte => !isAsciiWhitespace byte) name with
      | none => none
      | some last => if first ≤ last ∧ last < name.length then some (some ((name.take (last + 1)).drop first)) else none

/-- The names that the `Connection` fields list. -/
def connectionHeaders (names : HeaderNames) (fields : HeaderFields) : Option (List HeaderName) :=
  (((fields.getAll connection).flatMap fun value => value.splitOnP (· == 44)).mapM connectionElement).map
    fun elements => elements.filterMap fun element => element.bind names.fromBytes

/-- `remove_hop_by_hop_headers`; no result stands for a panic. -/
def removeHopByHopHeaders (names : HeaderNames) (fields : HeaderFields) : Option HeaderFields :=
  (connectionHeaders names fields).map fun listed =>
    hopByHopNames.foldl HeaderFields.remove (listed.foldl HeaderFields.remove fields)

/-- Equality without regard to the case of ASCII letters. -/
def EqIgnoreAsciiCase (left right : List UInt8) : Prop := left.map toAsciiLowercase = right.map toAsciiLowercase

/-- Some `Connection` field has the name among its elements. -/
def ListedByConnection (names : HeaderNames) (fields : HeaderFields) (name : HeaderName) : Prop :=
  ∃ value ∈ fields.getAll connection, ∃ element ∈ value.splitOnP (· == 44),
    names.valid (trimAscii element) = true ∧ EqIgnoreAsciiCase name.val (trimAscii element)

/-- An element is trimmed, and blank if nothing is left. -/
theorem connectionElement_eq (name : List UInt8) :
    connectionElement name = some (if trimAscii name = [] then none else some (trimAscii name)) := by
  unfold connectionElement
  cases hfirst : name.findIdx? fun byte => !isAsciiWhitespace byte with
  | none =>
      have hblank : ∀ byte ∈ name, isAsciiWhitespace byte = true := by
        simpa using List.findIdx?_eq_none_iff.mp hfirst
      have hnothing : name.rdropWhile isAsciiWhitespace = [] := List.rdropWhile_eq_nil_iff.mpr hblank
      simp [trimAscii, hnothing]
  | some first =>
      obtain ⟨hlt, hfound⟩ := List.findIdx?_eq_some_iff_findIdx_eq.mp hfirst
      have hexists : ∃ byte ∈ name, isAsciiWhitespace byte = false := by
        obtain ⟨byte, hbyte, htest⟩ := List.findIdx_lt_length.mp (hfound ▸ hlt)
        exact ⟨byte, hbyte, by simpa using htest⟩
      cases hlast : rposition (fun byte => !isAsciiWhitespace byte) name with
      | none =>
          obtain ⟨byte, hbyte, hnonblank⟩ := hexists
          have hnone := List.findIdx?_eq_none_iff.mp (Option.map_eq_none_iff.mp hlast) byte (List.mem_reverse.mpr hbyte)
          simp [hnonblank] at hnone
      | some last =>
          obtain ⟨hslice, hle, hlastLt⟩ := slice_positions hfirst hlast
          have hsome : trimAscii name ≠ [] := by
            rw [← hslice]
            apply List.ne_nil_of_length_pos
            rw [List.length_drop, List.length_take]
            omega
          simp only [if_pos (And.intro hle hlastLt), if_neg hsome, hslice]

theorem fromBytes_eq_some {names : HeaderNames} {bytes : List UInt8} {name : HeaderName} :
    names.fromBytes bytes = some name ↔ names.valid bytes = true ∧ EqIgnoreAsciiCase name.val bytes := by
  unfold HeaderNames.fromBytes EqIgnoreAsciiCase
  rw [name.property]
  constructor
  · intro h
    split at h
    · rename_i hvalid
      obtain rfl := Option.some.inj h
      exact ⟨hvalid, rfl⟩
    · cases h
  · rintro ⟨hvalid, hname⟩
    rw [if_pos hvalid]
    exact congrArg some (Subtype.ext hname.symm)

/-- The names are read without a panic, and they are those that the fields list. -/
theorem connectionHeaders_spec (names : HeaderNames) (fields : HeaderFields) :
    ∃ listed, connectionHeaders names fields = some listed ∧
      ∀ name, name ∈ listed ↔ ListedByConnection names fields name := by
  have hmap : ∀ elements : List (List UInt8), elements.mapM connectionElement =
      some (elements.map fun element => if trimAscii element = [] then none else some (trimAscii element)) := by
    intro elements
    induction elements with
    | nil => rfl
    | cons element elements ih =>
        rw [List.mapM_cons, connectionElement_eq, ih]
        rfl
  refine ⟨_, by rw [connectionHeaders, hmap]; rfl, ?_⟩
  intro name
  rw [List.mem_filterMap]
  constructor
  · rintro ⟨trimmed, htrimmed, hname⟩
    obtain ⟨element, helement, rfl⟩ := List.mem_map.mp htrimmed
    obtain ⟨value, hvalue, helement⟩ := List.mem_flatMap.mp helement
    refine ⟨value, hvalue, element, helement, ?_⟩
    split at hname
    · cases hname
    · exact fromBytes_eq_some.mp hname
  · rintro ⟨value, hvalue, element, helement, hname⟩
    have hsome : trimAscii element ≠ [] := by
      intro hblank
      rw [hblank, names.empty] at hname
      cases hname.1
    refine ⟨some (trimAscii element), ?_, fromBytes_eq_some.mpr hname⟩
    exact List.mem_map.mpr ⟨element, List.mem_flatMap.mpr ⟨value, hvalue, helement⟩, if_neg hsome⟩

namespace HeaderFields

/-- Removing one name after the other leaves the fields with other names, in order. -/
theorem foldl_remove (listed : List HeaderName) (fields : HeaderFields) :
    listed.foldl remove fields = fields.filter fun field => decide (field.1 ∉ listed) := by
  induction listed generalizing fields with
  | nil => simp
  | cons name listed ih =>
      rw [List.foldl_cons, ih, remove, List.filter_filter]
      apply List.filter_congr
      intro field _
      rw [Bool.eq_iff_iff]
      simp [and_comm]

theorem getAll_filter (keep : HeaderName → Bool) {name : HeaderName} (h : keep name = true) (fields : HeaderFields) :
    getAll name (fields.filter fun field => keep field.1) = getAll name fields := by
  unfold getAll
  rw [List.filterMap_filter]
  apply List.filterMap_congr
  intro field _
  by_cases hname : field.1 = name
  · rw [hname, h, if_pos rfl]
  · rw [if_neg hname, ite_self]

theorem getAll_filter_of_removed (keep : HeaderName → Bool) {name : HeaderName} (h : keep name = false)
    (fields : HeaderFields) : getAll name (fields.filter fun field => keep field.1) = [] := by
  unfold getAll
  rw [List.filterMap_eq_nil_iff]
  intro field hfield
  have hkept := List.of_mem_filter hfield
  apply if_neg
  intro hname
  rw [hname, h] at hkept
  cases hkept

end HeaderFields

/-- One filter over the fields does what the two loops do. -/
theorem removeHopByHopHeaders_eq (names : HeaderNames) (fields : HeaderFields) :
    ∃ listed : List HeaderName, (∀ name, name ∈ listed ↔ ListedByConnection names fields name) ∧
      removeHopByHopHeaders names fields =
        some (fields.filter fun field => decide (field.1 ∉ hopByHopNames ∧ field.1 ∉ listed)) := by
  obtain ⟨listed, hlisted, hmem⟩ := connectionHeaders_spec names fields
  refine ⟨listed, hmem, ?_⟩
  rw [removeHopByHopHeaders, hlisted, Option.map_some, HeaderFields.foldl_remove, HeaderFields.foldl_remove,
    List.filter_filter]
  refine congrArg some (List.filter_congr ?_)
  intro field _
  rw [Bool.eq_iff_iff]
  simp

/-- For any fields: what is left are the fields that are neither hop-by-hop by name nor listed by a `Connection` field,
a name that is left has all its values in their order, and a second pass finds nothing to remove. -/
theorem hop_by_hop_removed_exactly (names : HeaderNames) (fields : HeaderFields) :
    ∃ left, removeHopByHopHeaders names fields = some left ∧
      (∀ field, field ∈ left ↔ field ∈ fields ∧
        field.1 ∉ ["connection", "keep-alive", "proxy-authenticate", "proxy-authorization", "te", "trailer",
          "transfer-encoding", "upgrade", "proxy-connection"].map HeaderName.fromStatic ∧
        ¬ListedByConnection names fields field.1) ∧
      (∀ name, left.getAll name ≠ [] → left.getAll name = fields.getAll name) ∧
      removeHopByHopHeaders names left = some left := by
  obtain ⟨listed, hmem, hremoved⟩ := removeHopByHopHeaders_eq names fields
  refine ⟨_, hremoved, ?_, ?_, ?_⟩
  · intro field
    rw [List.mem_filter, decide_eq_true_eq, hmem]
    rfl
  · intro name hleft
    refine HeaderFields.getAll_filter (fun name => decide (name ∉ hopByHopNames ∧ name ∉ listed)) ?_ fields
    -- a name that is removed has no value left
    by_contra hgone
    exact hleft (HeaderFields.getAll_filter_of_removed (fun name => decide (name ∉ hopByHopNames ∧ name ∉ listed))
      (Bool.eq_false_iff.mpr hgone) fields)
  · -- No `Connection` field is left to list anything.
    obtain ⟨listed', hmem', hremoved'⟩ := removeHopByHopHeaders_eq names
      (fields.filter fun field => decide (field.1 ∉ hopByHopNames ∧ field.1 ∉ listed))
    have hnone : ∀ name, name ∉ listed' := by
      intro name hlisted
      obtain ⟨value, hvalue, -⟩ := (hmem' name).mp hlisted
      have hconnection : connection ∈ hopByHopNames := List.mem_cons_self
      have hempty := HeaderFields.getAll_filter_of_removed
        (fun name => decide (name ∉ hopByHopNames ∧ name ∉ listed))
        (decide_eq_false fun hkept => hkept.1 hconnection) fields
      rw [hempty] at hvalue
      cases hvalue
    rw [hremoved', List.filter_filter]
    refine congrArg some (List.filter_congr ?_)
    intro field _
    rw [Bool.eq_iff_iff]
    simp only [Bool.and_eq_true, decide_eq_true_eq]
    exact ⟨fun hboth => hboth.2, fun hkept => ⟨⟨hkept.1, hnone field.1⟩, hkept⟩⟩

-- A valid element next to bytes that are no text.
example :
    removeHopByHopHeaders
      ⟨fun bytes => !bytes.isEmpty && bytes.all fun byte => decide (33 ≤ byte.toNat ∧ byte.toNat ≤ 126), rfl⟩
    [(connection, 255 :: 44 :: 32 :: asciiBytes "X-Remove"), (.fromStatic "x-remove", []),
      (.fromStatic "x-keep", [1])] =
      some [(.fromStatic "x-keep", [1])] := by
  decide +kernel

end MistralrsProxy
