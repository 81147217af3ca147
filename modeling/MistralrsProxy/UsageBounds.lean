import MistralrsProxy.Usage
import Mathlib.Algebra.Group.Nat.Defs

/-! The bounds of the sniffer, for any bytes whatsoever: the positions in its two tables, the nesting counter and the
buffer. The buffer holds at least one byte for each open brace, so the cap on the buffer is a cap on the counter. -/

namespace MistralrsProxy

/-- `u32::MAX`, which bounds the nesting counter. -/
def depthMax : Nat := 2 ^ 32 - 1

namespace UsageSniffer

/-- What holds between two bytes. -/
def InBounds (sniffer : UsageSniffer) : Prop :=
  match sniffer.state with
  | .searching matched => matched < 7 ∧ sniffer.object = []
  | .awaitingColon | .awaitingValue => sniffer.object = []
  | .skippingNull matched => 1 ≤ matched ∧ matched < 4 ∧ sniffer.object = []
  | .capturing depth _ _ => 1 ≤ depth ∧ depth ≤ sniffer.object.length ∧ sniffer.object.length < 4096

/-- What the next byte evaluates is in range: the index into a table, the change of the counter, and the length of the
buffer with the byte added to it. -/
def StepInRange (byte : UInt8) (sniffer : UsageSniffer) : Prop :=
  match sniffer.state with
  | .searching matched => matched < needle.length
  | .awaitingColon | .awaitingValue => True
  | .skippingNull matched => matched < nullBytes.length
  | .capturing depth inString _ =>
      (inString = false → byte = 123 → depth + 1 ≤ depthMax) ∧ (inString = false → byte = 125 → 1 ≤ depth) ∧
        (sniffer.object ++ [byte]).length ≤ 4096

/-- Braces outside strings are balanced with the last byte and not before it. -/
def closes : Nat → Bool → Bool → List UInt8 → Bool
  | _, _, _, [] => false
  | depth, inString, escaped, byte :: rest =>
      let (depth, inString, escaped) := captureByte byte depth inString escaped
      if depth = 0 then rest.isEmpty else closes depth inString escaped rest

/-- The bytes are one `\x7b...\x7d` value. -/
def isObject : List UInt8 → Bool
  | [] => false
  | first :: rest => first == 123 && closes 1 false false rest

section Steps

variable {decode : List UInt8 → Option UsageFields} {byte : UInt8} {sniffer : UsageSniffer} {depth : Nat}
  {inString escaped : Bool}

theorem captureByte_le : (captureByte byte depth inString escaped).1 ≤ depth + 1 := by
  unfold captureByte
  split_ifs <;> simp only <;> omega

theorem restart_inBounds : (sniffer.restart byte).InBounds := by
  refine ⟨?_, rfl⟩
  split_ifs <;> omega

theorem finishObject_inBounds : (sniffer.finishObject decode).InBounds := ⟨by omega, rfl⟩

/-- A byte in front of the value of a member. -/
theorem search_inBounds {matched : Nat} (hstate : sniffer.state = .searching matched) (h : sniffer.InBounds) :
    (sniffer.feedByte decode byte).InBounds := by
  simp only [InBounds, hstate] at h
  simp only [feedByte, hstate]
  have hlength : needle.length = 7 := rfl
  split_ifs with hmatch hlast hquote
  · exact h.2
  · refine ⟨?_, h.2⟩
    omega
  · exact ⟨by omega, h.2⟩
  · exact ⟨by omega, h.2⟩

theorem awaitColon_inBounds (hstate : sniffer.state = .awaitingColon) (h : sniffer.InBounds) :
    (sniffer.feedByte decode byte).InBounds := by
  simp only [feedByte, hstate]
  split_ifs with hcolon hblank
  · simpa only [InBounds, hstate] using h
  · exact h
  · exact restart_inBounds

theorem awaitValue_inBounds (hstate : sniffer.state = .awaitingValue) (h : sniffer.InBounds) :
    (sniffer.feedByte decode byte).InBounds := by
  simp only [feedByte, hstate]
  split_ifs with hbrace hnull hblank
  · exact ⟨by omega, by simp, by simp⟩
  · refine ⟨by omega, by omega, ?_⟩
    simpa only [InBounds, hstate] using h
  · exact h
  · exact restart_inBounds

theorem skipNull_inBounds {matched : Nat} (hstate : sniffer.state = .skippingNull matched) (h : sniffer.InBounds) :
    (sniffer.feedByte decode byte).InBounds := by
  simp only [InBounds, hstate] at h
  simp only [feedByte, hstate]
  have hlength : nullBytes.length = 4 := rfl
  split_ifs with hmatch hlast
  · exact ⟨by omega, h.2.2⟩
  · refine ⟨by omega, ?_, h.2.2⟩
    omega
  · exact restart_inBounds

theorem capture_inBounds (hstate : sniffer.state = .capturing depth inString escaped) (h : sniffer.InBounds) :
    (sniffer.feedByte decode byte).InBounds := by
  simp only [InBounds, hstate] at h
  have hle : (captureByte byte depth inString escaped).1 ≤ depth + 1 := captureByte_le
  simp only [feedByte, hstate]
  split_ifs with hclosed hfull
  · exact finishObject_inBounds
  · exact ⟨by omega, rfl⟩
  · have hlength : (sniffer.object ++ [byte]).length = sniffer.object.length + 1 := List.length_append
    have hcap : maxObjectBytes = 4096 := rfl
    refine ⟨?_, ?_, ?_⟩
    · omega
    · show _ ≤ (sniffer.object ++ [byte]).length
      omega
    · show (sniffer.object ++ [byte]).length < 4096
      omega

/-- Every byte keeps the bounds, in every state. -/
theorem feedByte_inBounds (h : sniffer.InBounds) : (sniffer.feedByte decode byte).InBounds := by
  cases hstate : sniffer.state with
  | searching matched => exact search_inBounds hstate h
  | awaitingColon => exact awaitColon_inBounds hstate h
  | awaitingValue => exact awaitValue_inBounds hstate h
  | skippingNull matched => exact skipNull_inBounds hstate h
  | capturing depth inString escaped => exact capture_inBounds hstate h

theorem stepInRange_of_inBounds (h : sniffer.InBounds) (byte : UInt8) : sniffer.StepInRange byte := by
  cases hstate : sniffer.state with
  | searching matched =>
      simp only [InBounds, hstate] at h
      simp only [StepInRange, hstate]
      exact h.1
  | awaitingColon => simp only [StepInRange, hstate]
  | awaitingValue => simp only [StepInRange, hstate]
  | skippingNull matched =>
      simp only [InBounds, hstate] at h
      simp only [StepInRange, hstate]
      exact h.2.1
  | capturing depth inString escaped =>
      simp only [InBounds, hstate] at h
      simp only [StepInRange, hstate]
      have hmax : depthMax = 4294967295 := rfl
      refine ⟨fun _ _ => by omega, fun _ _ => h.1, ?_⟩
      rw [List.length_append, List.length_singleton]
      omega

end Steps

section Runs

variable {decode : List UInt8 → Option UsageFields}

@[simp] theorem feed_nil (sniffer : UsageSniffer) : sniffer.feed decode [] = sniffer := rfl

@[simp] theorem feed_cons (byte : UInt8) (bytes : List UInt8) (sniffer : UsageSniffer) :
    sniffer.feed decode (byte :: bytes) = (sniffer.feedByte decode byte).feed decode bytes := rfl

theorem feed_append (first second : List UInt8) (sniffer : UsageSniffer) :
    sniffer.feed decode (first ++ second) = (sniffer.feed decode first).feed decode second := List.foldl_append

/-- Where the body is cut does not matter. -/
theorem feed_flatten (chunks : List (List UInt8)) (sniffer : UsageSniffer) :
    chunks.foldl (fun sniffer chunk => sniffer.feed decode chunk) sniffer = sniffer.feed decode chunks.flatten := by
  induction chunks generalizing sniffer with
  | nil => rfl
  | cons chunk chunks ih => rw [List.foldl_cons, ih, List.flatten_cons, feed_append]

theorem feed_inBounds (bytes : List UInt8) {sniffer : UsageSniffer} (h : sniffer.InBounds) :
    (sniffer.feed decode bytes).InBounds := by
  induction bytes generalizing sniffer with
  | nil => exact h
  | cons byte bytes ih => exact ih (feedByte_inBounds h)

/-- The rest of an object that fits is buffered to its last byte and decoded. -/
theorem feed_closes (rest : List UInt8) {depth : Nat} {inString escaped : Bool} {sniffer : UsageSniffer}
    (hstate : sniffer.state = .capturing depth inString escaped) (hcloses : closes depth inString escaped rest = true)
    (hfits : sniffer.object.length + rest.length ≤ maxObjectBytes) :
    sniffer.feed decode rest = finishObject decode { sniffer with object := sniffer.object ++ rest } := by
  induction rest generalizing sniffer depth inString escaped with
  | nil => cases hcloses
  | cons byte rest ih =>
      simp only [closes] at hcloses
      rw [feed_cons]
      simp only [feedByte, hstate]
      split at hcloses
      · rename_i hclosed
        obtain rfl : rest = [] := List.isEmpty_iff.mp hcloses
        rw [if_pos hclosed, feed_nil]
        rfl
      · rename_i hopen
        have hrest : rest ≠ [] := by
          rintro rfl
          cases hcloses
        have hpos : 0 < rest.length := List.length_pos_of_ne_nil hrest
        rw [List.length_cons] at hfits
        have hshort : ¬maxObjectBytes ≤ (sniffer.object ++ [byte]).length := by
          rw [List.length_append, List.length_singleton]
          omega
        rw [if_neg hopen, if_neg hshort, ih rfl hcloses]
        · simp only [List.append_assoc, List.singleton_append]
          rfl
        · rw [List.length_append, List.length_singleton]
          omega

/-- An object of at most 4096 bytes reaches the decoder whole. -/
theorem feed_isObject {object : List UInt8} {sniffer : UsageSniffer} (hstate : sniffer.state = .awaitingValue)
    (hobject : isObject object = true) (hfits : object.length ≤ maxObjectBytes) :
    sniffer.feed decode object = finishObject decode { sniffer with object := object } := by
  cases object with
  | nil => cases hobject
  | cons first rest =>
      obtain ⟨hfirst, hcloses⟩ := Bool.and_eq_true_iff.mp hobject
      obtain rfl : first = 123 := eq_of_beq hfirst
      have hfeed : sniffer.feedByte decode 123 =
          { sniffer with object := [123], state := .capturing 1 false false } := by
        simp only [feedByte, hstate, if_true]
      rw [feed_cons, hfeed, feed_closes rest rfl hcloses]
      · rfl
      · rw [List.length_cons] at hfits
        show 1 + rest.length ≤ _
        omega

end Runs

end UsageSniffer

end MistralrsProxy
