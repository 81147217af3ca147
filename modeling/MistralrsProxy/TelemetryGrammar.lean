import MistralrsProxy.TelemetryParse

/-! The samples without labels, as texts put together from their parts. The parser accepts such a sample exactly if the
line is one, so what is required of a scrape can be said without the parser. -/

namespace MistralrsProxy

/-- Blanks, and then nothing or a comment. -/
def EndsLine (text : List Char) : Prop :=
  ∃ blanks comment, text = blanks ++ comment ∧ (∀ char ∈ blanks, isWhitespace char = true) ∧
    (comment = [] ∨ comment.head? = some '#')

/-- What may stand behind a value: the end of the line, or blanks and a timestamp in front of it. -/
def FollowsValue (text : List Char) : Prop :=
  EndsLine text ∨ ∃ blanks timestamp rest, text = blanks ++ (timestamp ++ rest) ∧
    (∀ char ∈ blanks, isWhitespace char = true) ∧ (∀ char ∈ timestamp, isWhitespace char = false) ∧
    (parseI64 timestamp).isSome = true ∧ (∀ char ∈ rest.head?, isWhitespace char = true) ∧ EndsLine rest

/-- A name, blanks, a value and what may stand behind it. -/
def UnlabelledSample (line name value : List Char) : Prop :=
  ∃ gap rest, line = name ++ (gap ++ (value ++ rest)) ∧
    (name.head?.any isMetricNameStart = true ∧ ∀ char ∈ name, isMetricNameContinue char = true) ∧
    (gap ≠ [] ∧ ∀ char ∈ gap, isAsciiWhitespace char = true) ∧
    (value ≠ [] ∧ ∀ char ∈ value, isAsciiWhitespace char = false) ∧
    (∀ char ∈ rest.head?, isAsciiWhitespace char = true) ∧ FollowsValue rest

/-- A scan stops at the end of a front that passes, if what follows does not. -/
theorem scan_append (test : Char → Bool) (front rest : List Char) (hfront : ∀ char ∈ front, test char = true)
    (hrest : ∀ char ∈ rest.head?, test char = false) :
    (front ++ rest).takeWhile test = front ∧ (front ++ rest).dropWhile test = rest := by
  have hstop : rest.takeWhile test = [] ∧ rest.dropWhile test = rest := by
    cases rest with
    | nil => exact ⟨rfl, rfl⟩
    | cons char rest =>
        have hchar : test char = false := hrest char rfl
        simp [hchar]
  rw [List.takeWhile_append_of_pos hfront, List.dropWhile_append_of_pos hfront, hstop.1, hstop.2, List.append_nil]
  exact ⟨rfl, rfl⟩

/-- What a scan leaves begins with a character that does not pass. -/
theorem scan_stops (test : Char → Bool) (text : List Char) :
    ∀ char ∈ (text.dropWhile test).head?, test char = false := by
  intro char hchar
  have hstop := List.head?_dropWhile_not test text
  rw [Option.mem_def.mp hchar] at hstop
  exact hstop

theorem scan_passes (test : Char → Bool) (text : List Char) : ∀ char ∈ text.takeWhile test, test char = true :=
  List.all_eq_true.mp List.all_takeWhile

theorem scan_ne_nil {test : Char → Bool} {text : List Char} (h : text.head?.any test = true) :
    text.takeWhile test ≠ [] := by
  cases text with
  | nil => cases h
  | cons first rest =>
      have hfirst : test first = true := h
      rw [List.takeWhile_cons_of_pos hfirst]
      exact List.cons_ne_nil _ _

section Tail

variable {text : List Char}

theorem endsLine_iff : EndsLine text ↔ trimStart text = [] ∨ (trimStart text).head? = some '#' := by
  constructor
  · rintro ⟨blanks, comment, rfl, hblanks, hcomment⟩
    have htrim : trimStart (blanks ++ comment) = comment := by
      refine (scan_append isWhitespace blanks comment hblanks ?_).2
      intro char hchar
      rcases hcomment with rfl | hhash
      · cases hchar
      · obtain rfl : '#' = char := Option.some.inj (hhash.symm.trans hchar)
        decide
    rwa [htrim]
  · intro hend
    exact ⟨text.takeWhile isWhitespace, trimStart text, List.takeWhile_append_dropWhile.symm,
      scan_passes isWhitespace text, hend⟩

theorem parseI64_nil : parseI64 [] = none := rfl

/-- The check on what follows a value accepts exactly what may stand there. -/
theorem checkRemainder_iff : checkRemainder (trimStart text) = .ok () ↔ FollowsValue text := by
  unfold checkRemainder FollowsValue
  by_cases hend : EndsLine text
  · simp [hend, endsLine_iff.mp hend]
  rw [if_neg fun hnone => hend (endsLine_iff.mpr hnone), or_iff_right hend]
  dsimp only
  constructor
  · intro hchecked
    split at hchecked
    · cases hchecked
    · rename_i htime
      split at hchecked
      · rename_i hrest
        refine ⟨text.takeWhile isWhitespace, (trimStart text).takeWhile fun char => !isWhitespace char,
          (trimStart text).dropWhile fun char => !isWhitespace char, ?_, scan_passes isWhitespace text, ?_, ?_, ?_, ?_⟩
        · rw [List.takeWhile_append_dropWhile, trimStart, List.takeWhile_append_dropWhile]
        · intro char hchar
          simpa using scan_passes _ _ char hchar
        · exact Option.isSome_iff_ne_none.mpr htime
        · intro char hchar
          simpa using scan_stops _ _ char hchar
        · exact endsLine_iff.mpr hrest
      · cases hchecked
  · rintro ⟨blanks, timestamp, rest, rfl, hblanks, htimestamp, htime, hhead, hrest⟩
    have hsome : timestamp ≠ [] := by
      rintro rfl
      rw [parseI64_nil] at htime
      cases htime
    obtain ⟨first, digits, hdigits⟩ := List.exists_cons_of_ne_nil hsome
    have htrim : trimStart (blanks ++ (timestamp ++ rest)) = timestamp ++ rest := by
      refine (scan_append isWhitespace blanks _ hblanks ?_).2
      intro char hchar
      rw [hdigits] at hchar
      obtain rfl : first = char := Option.some.inj hchar
      exact htimestamp first (by rw [hdigits]; exact List.mem_cons_self)
    obtain ⟨htake, hdrop⟩ := scan_append (fun char => !isWhitespace char) timestamp rest
      (fun char hchar => by rw [htimestamp char hchar]; rfl) (fun char hchar => by rw [hhead char hchar]; rfl)
    rw [htrim, htake, hdrop, if_neg (Option.isSome_iff_ne_none.mp htime), if_pos (endsLine_iff.mp hrest)]

end Tail

theorem head_cons {P : Char → Prop} {first : Char} {rest : List Char} (h : P first) :
    ∀ char ∈ (first :: rest).head?, P char := by
  intro char hchar
  obtain rfl : first = char := Option.some.inj hchar
  exact h

theorem isAsciiWhitespace_plain {char : Char} (h : isAsciiWhitespace char = true) :
    isMetricNameContinue char = false ∧ char ≠ '\x7b' := by
  simp only [isAsciiWhitespace, Bool.or_eq_true, beq_iff_eq] at h
  rcases h with (((rfl | rfl) | rfl) | rfl) | rfl <;> decide

theorem head_takeWhile_name {line : List Char} (h : line.head?.any isMetricNameStart = true) :
    (line.takeWhile isMetricNameContinue).head?.any isMetricNameStart = true := by
  cases line with
  | nil => cases h
  | cons first rest =>
      have hfirst : isMetricNameStart first = true := h
      have hcontinue : isMetricNameContinue first = true := by rw [isMetricNameContinue, hfirst, Bool.true_or]
      rw [List.takeWhile_cons_of_pos hcontinue]
      exact hfirst

theorem name_ne_nil {line : List Char} (h : line.head?.any isMetricNameStart = true) :
    line.takeWhile isMetricNameContinue ≠ [] := by
  intro hnone
  have hhead := head_takeWhile_name h
  rw [hnone] at hhead
  cases hhead

theorem parseLabels_none {text rest : List Char} (h : parseLabels text = .ok (none, rest)) : rest = text := by
  unfold parseLabels at h
  split at h
  · split at h <;> cases h
  · cases h
    rfl

theorem parseLabels_plain {text : List Char} (h : ∀ char ∈ text.head?, char ≠ '\x7b') :
    parseLabels text = .ok (none, text) := by
  unfold parseLabels
  split
  · exact absurd rfl (h _ rfl)
  · rfl

/-- What the scans have found when a sample is accepted. -/
theorem parseSampleLine_eq_ok {line : List Char} {sample : ParsedSample} :
    parseSampleLine line = .ok sample ↔
      line.head?.any isMetricNameStart = true ∧ sample.name = line.takeWhile isMetricNameContinue ∧
      ∃ rest, parseLabels (line.dropWhile isMetricNameContinue) = .ok (sample.labels, rest) ∧
        rest.head?.any isAsciiWhitespace = true ∧ rest.dropWhile isAsciiWhitespace ≠ [] ∧
        sample.value = (rest.dropWhile isAsciiWhitespace).takeWhile (fun char => !isAsciiWhitespace char) ∧
        checkRemainder
          (trimStart ((rest.dropWhile isAsciiWhitespace).dropWhile fun char => !isAsciiWhitespace char)) = .ok () := by
  constructor
  · intro h
    simp only [parseSampleLine] at h
    split at h
    · cases h
    · rename_i hname
      simp only [not_or, Bool.not_eq_true', Bool.not_eq_false] at hname
      split at h
      · cases h
      · rename_i labels rest hlabels
        split at h
        · cases h
        · rename_i hblank
          rw [Bool.not_eq_true, Bool.not_eq_false'] at hblank
          split at h
          · cases h
          · rename_i hsome
            split at h
            · cases h
            · rename_i hchecked
              cases h
              exact ⟨hname.2, rfl, rest, hlabels, hblank, hsome, rfl, hchecked⟩
  · obtain ⟨name, labels, value⟩ := sample
    rintro ⟨hstart, rfl, rest, hlabels, hblank, hsome, rfl, hchecked⟩
    have hnamed : ¬(line.takeWhile isMetricNameContinue = [] ∨ (!(line.head?.any isMetricNameStart)) = true) := by
      rw [hstart]
      exact not_or.mpr ⟨name_ne_nil hstart, Bool.false_ne_true⟩
    have hbehind : ¬(!(rest.head?.any isAsciiWhitespace)) = true := by
      rw [hblank]
      exact Bool.false_ne_true
    simp only [parseSampleLine, if_neg hnamed, hlabels, if_neg hbehind, if_neg hsome, hchecked]

theorem UnlabelledSample.of_parseSampleLine {line name value : List Char}
    (h : parseSampleLine line = .ok ⟨name, none, value⟩) : UnlabelledSample line name value := by
  obtain ⟨hstart, rfl, rest, hlabels, hblank, hsome, rfl, hchecked⟩ := parseSampleLine_eq_ok.mp h
  obtain rfl := parseLabels_none hlabels
  refine ⟨(line.dropWhile isMetricNameContinue).takeWhile isAsciiWhitespace, _, ?_, ⟨?_, ?_⟩, ⟨?_, ?_⟩, ⟨?_, ?_⟩, ?_,
    checkRemainder_iff.mp hchecked⟩
  · rw [List.takeWhile_append_dropWhile, List.takeWhile_append_dropWhile, List.takeWhile_append_dropWhile]
  · exact head_takeWhile_name hstart
  · exact scan_passes isMetricNameContinue line
  · exact scan_ne_nil hblank
  · exact scan_passes isAsciiWhitespace _
  · apply scan_ne_nil
    obtain ⟨digit, digits, hdigits⟩ := List.exists_cons_of_ne_nil hsome
    have hdigit := scan_stops isAsciiWhitespace _ digit (by rw [hdigits]; rfl)
    rw [hdigits]
    simpa using hdigit
  · intro char hchar
    simpa using scan_passes _ _ char hchar
  · intro char hchar
    simpa using scan_stops _ _ char hchar

theorem UnlabelledSample.parseSampleLine {line name value : List Char} (h : UnlabelledSample line name value) :
    parseSampleLine line = .ok ⟨name, none, value⟩ := by
  obtain ⟨gap, rest, rfl, ⟨hstart, hname⟩, ⟨hgap, hblank⟩, ⟨hvalue, hplain⟩, hhead, hfollows⟩ := h
  obtain ⟨first, blanks, rfl⟩ := List.exists_cons_of_ne_nil hgap
  obtain ⟨digit, digits, rfl⟩ := List.exists_cons_of_ne_nil hvalue
  have hfirst := hblank first List.mem_cons_self
  obtain ⟨letter, letters, rfl⟩ : ∃ letter letters, name = letter :: letters := by
    cases name with
    | nil => cases hstart
    | cons letter letters => exact ⟨letter, letters, rfl⟩
  obtain ⟨hnameTake, hnameDrop⟩ := scan_append isMetricNameContinue (letter :: letters)
    (first :: blanks ++ (digit :: digits ++ rest)) hname (head_cons (isAsciiWhitespace_plain hfirst).1)
  obtain ⟨_, hgapDrop⟩ := scan_append isAsciiWhitespace (first :: blanks) (digit :: digits ++ rest) hblank
    (head_cons (hplain digit List.mem_cons_self))
  obtain ⟨hvalueTake, hvalueDrop⟩ := scan_append (fun char => !isAsciiWhitespace char) (digit :: digits) rest
    (fun char hchar => by rw [hplain char hchar]; rfl) (fun char hchar => by rw [hhead char hchar]; rfl)
  refine parseSampleLine_eq_ok.mpr ⟨hstart, hnameTake.symm, first :: blanks ++ (digit :: digits ++ rest), ?_, ?_⟩
  · rw [hnameDrop]
    exact parseLabels_plain (head_cons (isAsciiWhitespace_plain hfirst).2)
  · rw [hgapDrop, hvalueTake, hvalueDrop]
    exact ⟨hfirst, List.cons_ne_nil _ _, rfl, checkRemainder_iff.mpr hfollows⟩

/-- The parser accepts a sample without labels exactly if the line is one, with this name and value. -/
theorem parseSampleLine_unlabelled_iff {line name value : List Char} :
    parseSampleLine line = .ok ⟨name, none, value⟩ ↔ UnlabelledSample line name value :=
  ⟨.of_parseSampleLine, fun h => h.parseSampleLine⟩

theorem UnlabelledSample.value_unique {line name name' value value' : List Char} (h : UnlabelledSample line name value)
    (h' : UnlabelledSample line name' value') : value = value' := by
  have hsame := (parseSampleLine_unlabelled_iff.mpr h).symm.trans (parseSampleLine_unlabelled_iff.mpr h')
  cases hsame
  rfl

/-- What is said of the value of a sample without labels, said of the one that the parser returns. -/
theorem exists_unlabelled_iff {line : List Char} {P : List Char → Prop} :
    (∃ name value, UnlabelledSample line name value ∧ P value) ↔
      ∃ sample, parseSampleLine line = .ok sample ∧ sample.labels = none ∧ P sample.value := by
  constructor
  · rintro ⟨name, value, hsample, hvalue⟩
    exact ⟨⟨name, none, value⟩, parseSampleLine_unlabelled_iff.mpr hsample, rfl, hvalue⟩
  · rintro ⟨⟨name, labels, value⟩, hsample, rfl, hvalue⟩
    exact ⟨name, value, parseSampleLine_unlabelled_iff.mp hsample, hvalue⟩

end MistralrsProxy
