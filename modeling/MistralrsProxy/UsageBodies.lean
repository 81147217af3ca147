import MistralrsProxy.UsageJson

/-! Response bodies: one JSON object, or a stream of events whose data lines hold one each. However the bytes are cut,
the sniffer ends with the counts of the last `usage` member that has any. -/

namespace MistralrsProxy

namespace UsageSniffer

open JsonText

/-- A line of an event stream with the line ends behind it: `data:` with an object, or a line without quotes, such as
the name of an event, a comment or the end marker. -/
inductive StreamLine where
  | data (before : List Blank) (object : Object) (after : List Blank)
  | other (bytes : { bytes : List UInt8 // (34 : UInt8) ∉ bytes })

/-- The bytes of `data:`. -/
def dataBytes : List UInt8 := [100, 97, 116, 97, 58]

def StreamLine.bytes : StreamLine → List UInt8
  | .data before object after => dataBytes ++ (blankBytes before ++ object.bytes ++ blankBytes after)
  | .other bytes => bytes

inductive Body where
  | json (before : List Blank) (object : Object) (after : List Blank)
  | stream (lines : List StreamLine)

def Body.bytes : Body → List UInt8
  | .json before object after => blankBytes before ++ object.bytes ++ blankBytes after
  | .stream lines => lines.flatMap StreamLine.bytes

def StreamLine.captures : StreamLine → List Object
  | .data _ object _ => objectCaptures object
  | .other _ => []

/-- The objects of the `usage` members that are not inside one another, in document order. -/
def Body.captures : Body → List Object
  | .json _ object _ => objectCaptures object
  | .stream lines => lines.flatMap StreamLine.captures

def StreamLine.withoutText : StreamLine → StreamLine
  | .data before object after => .data before object.withoutText after
  | .other bytes => .other bytes

def Body.withoutText : Body → Body
  | .json before object after => .json before object.withoutText after
  | .stream lines => .stream (lines.map StreamLine.withoutText)

section Texts

theorem memberCaptures_withoutText (key : List Piece) (value : Value) (inner : List Object) :
    memberCaptures key value.withoutText (inner.map Object.withoutText) =
      (memberCaptures key value inner).map Object.withoutText := by
  cases value with
  | object object =>
      simp only [Value.withoutText, memberCaptures]
      split
      · rfl
      · rfl
  | _ => rfl

mutual

theorem valueCaptures_withoutText (value : Value) :
    valueCaptures value.withoutText = (valueCaptures value).map Object.withoutText := by
  cases value with
  | array elements => exact elementsCaptures_withoutText elements
  | object object => exact objectCaptures_withoutText object
  | _ => rfl

theorem elementsCaptures_withoutText (elements : Elements) :
    elementsCaptures elements.withoutText = (elementsCaptures elements).map Object.withoutText := by
  cases elements with
  | last before value after => exact valueCaptures_withoutText value
  | more before value after rest =>
      rw [Elements.withoutText, elementsCaptures, elementsCaptures, List.map_append, valueCaptures_withoutText value,
        elementsCaptures_withoutText rest]

theorem objectCaptures_withoutText (object : Object) :
    objectCaptures object.withoutText = (objectCaptures object).map Object.withoutText := by
  cases object with
  | empty blanks => rfl
  | members members => exact membersCaptures_withoutText members

theorem membersCaptures_withoutText (members : Members) :
    membersCaptures members.withoutText = (membersCaptures members).map Object.withoutText := by
  cases members with
  | last name before value after =>
      rw [Members.withoutText, membersCaptures, membersCaptures, valueCaptures_withoutText value,
        memberCaptures_withoutText]
  | more name before value after rest =>
      rw [Members.withoutText, membersCaptures, membersCaptures, List.map_append, valueCaptures_withoutText value,
        memberCaptures_withoutText, membersCaptures_withoutText rest]

end

/-- No text makes or hides a member. -/
theorem captures_withoutText (body : Body) : body.withoutText.captures = body.captures.map Object.withoutText := by
  have hline : ∀ line : StreamLine, line.withoutText.captures = line.captures.map Object.withoutText := by
    intro line
    cases line with
    | data before object after => exact objectCaptures_withoutText object
    | other bytes => rfl
  cases body with
  | json before object after => exact objectCaptures_withoutText object
  | stream lines =>
      simp only [Body.withoutText, Body.captures, List.flatMap_map, List.map_flatMap, hline]

end Texts

section Bodies

variable (decode : List UInt8 → Option UsageFields)

/-- An object at the top leaves the sniffer where it began. -/
theorem feed_object (object : Object) (hfit : Fit (objectCaptures object)) (latest : Option Usage) :
    feed decode object.bytes (settled latest) = settled (recordAll decode latest (objectCaptures object)) := by
  cases object with
  | empty blanks =>
      exact feed_enclosed (by decide) (by decide) (Reads.unquoted fun _ => blank_ne_quote) hfit latest
  | members members => exact feed_enclosed (by decide) (by decide) (reads_members decode members) hfit latest

theorem feed_padded (before after : List Blank) (object : Object) (hfit : Fit (objectCaptures object))
    (latest : Option Usage) :
    feed decode (blankBytes before ++ object.bytes ++ blankBytes after) (settled latest) =
      settled (recordAll decode latest (objectCaptures object)) := by
  rw [feed_append, feed_append, feed_settled_blanks, feed_object decode object hfit, feed_settled_blanks]

theorem feed_line (line : StreamLine) (hfit : Fit line.captures) (latest : Option Usage) :
    feed decode line.bytes (settled latest) = settled (recordAll decode latest line.captures) := by
  cases line with
  | data before object after =>
      have hdata : feed decode dataBytes (settled latest) = settled latest := rfl
      rw [StreamLine.bytes, feed_append, hdata]
      exact feed_padded decode before after object hfit latest
  | other bytes => exact feed_settled decode latest fun byte hbyte hquote => bytes.property (hquote ▸ hbyte)

theorem feed_lines (lines : List StreamLine) (hfit : Fit (lines.flatMap StreamLine.captures)) (latest : Option Usage) :
    feed decode (lines.flatMap StreamLine.bytes) (settled latest) =
      settled (recordAll decode latest (lines.flatMap StreamLine.captures)) := by
  induction lines generalizing latest with
  | nil => rfl
  | cons line lines ih =>
      rw [List.flatMap_cons] at hfit
      obtain ⟨hline, hlines⟩ := hfit.append
      rw [List.flatMap_cons, List.flatMap_cons, feed_append, feed_line decode line hline, ih hlines, recordAll_append]

theorem feed_body (body : Body) (hfit : Fit body.captures) (latest : Option Usage) :
    feed decode body.bytes (settled latest) = settled (recordAll decode latest body.captures) := by
  cases body with
  | json before object after => exact feed_padded decode before after object hfit latest
  | stream lines => exact feed_lines decode lines hfit latest

/-- What the decoder finds in an object, if it is at least one count. -/
def counts (object : Object) : Option Usage :=
  (decode object.bytes).bind fun fields => if fields.usage.isInformative then some fields.usage else none

theorem keepLatest_eq (latest : Option Usage) (object : Object) :
    keepLatest decode latest object.bytes = (counts decode object).or latest := by
  unfold keepLatest counts
  cases decode object.bytes with
  | none => rfl
  | some fields =>
      show (if fields.usage.isInformative then some fields.usage else latest) =
        (if fields.usage.isInformative then some fields.usage else none).or latest
      split
      · rfl
      · rfl

/-- The last counts win. -/
theorem recordAll_eq (objects : List Object) (latest : Option Usage) :
    recordAll decode latest objects = ((objects.filterMap (counts decode)).getLast?).or latest := by
  induction objects generalizing latest with
  | nil => rfl
  | cons object objects ih =>
      show recordAll decode (keepLatest decode latest object.bytes) objects = _
      rw [ih, keepLatest_eq, List.filterMap_cons]
      cases counts decode object with
      | none => rfl
      | some usage =>
          rw [List.getLast?_cons]
          cases (objects.filterMap (counts decode)).getLast? with
          | none => rfl
          | some _ => rfl

end Bodies

/-- However the bytes of a body are cut, the sniffer ends with the counts of the last `usage` member that has any. The
text of string values has no part in it: if the decoder ignores such text inside an object, bodies that differ in
nothing else give the same counts. -/
theorem sniffer_reads_usage_members (decode : List UInt8 → Option UsageFields) (body : Body)
    (hfit : ∀ object ∈ body.captures, object.bytes.length ≤ 4096) :
    (∀ chunks : List (List UInt8), chunks.flatten = body.bytes →
      (chunks.foldl (fun sniffer chunk => sniffer.feed decode chunk) new).usage =
        (body.captures.filterMap (counts decode)).getLast?) ∧
    ((∀ object : Object, counts decode object.withoutText = counts decode object) →
      ∀ other : Body, other.withoutText = body.withoutText →
        (∀ object ∈ other.captures, object.bytes.length ≤ 4096) →
        ∀ chunks : List (List UInt8), chunks.flatten = other.bytes →
          (chunks.foldl (fun sniffer chunk => sniffer.feed decode chunk) new).usage =
            (body.captures.filterMap (counts decode)).getLast?) := by
  have hreads : ∀ body : Body, Fit body.captures → ∀ chunks : List (List UInt8), chunks.flatten = body.bytes →
      (chunks.foldl (fun sniffer chunk => sniffer.feed decode chunk) new).usage =
        (body.captures.filterMap (counts decode)).getLast? := by
    intro body hfit chunks hchunks
    rw [feed_flatten, hchunks]
    show (feed decode body.bytes (settled none)).usage = _
    rw [feed_body decode body hfit]
    show recordAll decode none body.captures = _
    rw [recordAll_eq, Option.or_none]
  refine ⟨hreads body hfit, ?_⟩
  intro hdecode other hother hotherFit chunks hchunks
  rw [hreads other hotherFit chunks hchunks]
  -- both lists of objects agree once the text is taken out of them, and the decoder takes it out first
  have hsame : other.captures.map Object.withoutText = body.captures.map Object.withoutText := by
    rw [← captures_withoutText, ← captures_withoutText, hother]
  have hcounts : ∀ objects : List Object,
      objects.filterMap (counts decode) = (objects.map Object.withoutText).filterMap (counts decode) := by
    intro objects
    rw [List.filterMap_map]
    congr 1
    funext object
    exact (hdecode object).symm
  rw [hcounts, hsame, ← hcounts]

/-- The pieces of a text in which nothing needs an escape. -/
def plainText (bytes : List UInt8) : List Piece :=
  bytes.filterMap fun byte => if h : isPlain byte = true then some (.plain ⟨byte, h⟩) else none

/-- `{"total_tokens":3}`. -/
def threeTokens : Object :=
  .members (.last ⟨[], plainText [116, 111, 116, 97, 108, 95, 116, 111, 107, 101, 110, 115], []⟩ []
    (.number ⟨false, .positive 2 [], none, none⟩) [])

/-- A generated text in front of the field. -/
def mentioningBody (text : List Piece) : Body :=
  .json [] (.members (.more ⟨[], plainText [116], []⟩ [] (.string text) []
    (.last ⟨[], plainText [117, 115, 97, 103, 101], [.space]⟩ [.lineFeed] (.object threeTokens) []))) [.lineFeed]

/-- A text that ends like the field name. -/
def mentionedName : List Piece := .escape ⟨34, rfl⟩ :: plainText [117, 115, 97, 103, 101]

theorem mentioningBody_fit (text : List Piece) :
    ∀ object ∈ (mentioningBody text).captures, object.bytes.length ≤ 4096 := by
  intro object hobject
  obtain rfl : object = threeTokens := List.mem_singleton.mp hobject
  decide

def decodeThree (object : List UInt8) : Option UsageFields :=
  if object = threeTokens.bytes then some ⟨none, none, none, none, some 3, none, none⟩ else none

/-- The body above, one byte at a time; and a body with another text in one piece, read by a decoder for which all
objects are alike. -/
theorem sniffer_reads_usage_members_bytewise :
    (((mentioningBody mentionedName).bytes.map fun byte => [byte]).foldl
      (fun sniffer chunk => sniffer.feed decodeThree chunk) new).usage = some ⟨none, none, some 3, none⟩ ∧
    ([(mentioningBody (plainText [104, 105])).bytes].foldl
      (fun sniffer chunk =>
        sniffer.feed (fun _ => some ⟨none, none, none, none, some 3, none, none⟩) chunk) new).usage =
        some ⟨none, none, some 3, none⟩ := by
  constructor
  · have hchunks : ((mentioningBody mentionedName).bytes.map fun byte => [byte]).flatten =
        (mentioningBody mentionedName).bytes := by decide
    rw [(sniffer_reads_usage_members decodeThree (mentioningBody mentionedName) (mentioningBody_fit _)).1 _ hchunks]
    rfl
  · have hother := (sniffer_reads_usage_members (fun _ => some ⟨none, none, none, none, some 3, none, none⟩)
      (mentioningBody mentionedName) (mentioningBody_fit _)).2 (fun _ => rfl)
      (mentioningBody (plainText [104, 105])) rfl (mentioningBody_fit _)
      [(mentioningBody (plainText [104, 105])).bytes] List.flatten_singleton
    rw [hother]
    rfl

end UsageSniffer

end MistralrsProxy
