import MistralrsProxy.TelemetryLine

/-! Rendered samples are read back. A label value may be any text, for the scan of a label set knows about quotes and
escapes; what follows the value is a timestamp, a comment, both or nothing. -/

namespace MistralrsProxy

/-- Spaces and tabs, at least one. -/
abbrev Gap := { gap : List Char // gap ≠ [] ∧ ∀ char ∈ gap, char = ' ' ∨ char = '\t' }

/-- A letter or an underscore, and then also digits. -/
def isLabelName : List Char → Bool
  | [] => false
  | first :: rest => (first.isAlpha || first == '_') && rest.all fun char => char.isAlpha || char == '_' || char.isDigit

structure Label where
  name : List Char
  value : List Char
  valid : isLabelName name = true

/-- A timestamp that fits `i64`. -/
abbrev SampleTime := { time : Int // -2 ^ 63 ≤ time ∧ time < 2 ^ 63 }

/-- The parts of a line. The comment is the text behind its `#`. -/
structure SampleLine where
  name : List Char
  labels : Option (List Label)
  gap : Gap
  value : List Char
  timestamp : Option (Gap × SampleTime)
  comment : Option (Gap × List Char)
  nameStart : name.head?.any isMetricNameStart = true
  nameContinue : ∀ char ∈ name, isMetricNameContinue char = true
  valueSome : value ≠ []
  valuePlain : ∀ char ∈ value, isAsciiWhitespace char = false

/-- How a character is written between quotes. -/
def escapeChar (char : Char) : List Char :=
  if char = '\\' then ['\\', '\\'] else if char = '"' then ['\\', '"'] else if char = '\n' then ['\\', 'n'] else [char]

def escapeValue (value : List Char) : List Char := value.flatMap escapeChar

def Label.render (label : Label) : List Char := label.name ++ '=' :: '"' :: (escapeValue label.value ++ ['"'])

/-- The labels with commas between them. -/
def renderInner : List Label → List Char
  | [] => []
  | [label] => label.render
  | label :: labels => label.render ++ ',' :: renderInner labels

def renderLabels (labels : List Label) : List Char := '\x7b' :: renderInner labels ++ ['\x7d']

def renderI64 (time : Int) : List Char :=
  if time < 0 then '-' :: Nat.toDigits 10 time.natAbs else Nat.toDigits 10 time.natAbs

namespace SampleLine

/-- What follows the value. -/
def tail (line : SampleLine) : List Char :=
  (match line.timestamp with
    | none => []
    | some (gap, time) => gap.val ++ renderI64 time.val) ++
  match line.comment with
    | none => []
    | some (gap, text) => gap.val ++ '#' :: text

def render (line : SampleLine) : List Char :=
  line.name ++ ((line.labels.map renderLabels).getD [] ++ (line.gap.val ++ (line.value ++ line.tail)))

end SampleLine

section LabelSet

/-- What was found, with more text in front of it. -/
def behind (front : List Char) (found : List Char × List Char) : List Char × List Char := (front ++ found.1, found.2)

theorem map_behind_nil (found : Option (List Char × List Char)) : found.map (behind []) = found :=
  Option.map_id'

theorem map_behind_append (first second : List Char) (found : Option (List Char × List Char)) :
    (found.map (behind second)).map (behind first) = found.map (behind (first ++ second)) := by
  rw [Option.map_map]
  refine congrArg (fun f => Option.map f found) ?_
  funext parts
  simp [behind]

/-- Outside quotes anything but a quote and the brace is passed over. -/
theorem findLabelSetEnd_plain {front : List Char} (h : ∀ char ∈ front, char ≠ '"' ∧ char ≠ '\x7d') (rest : List Char) :
    findLabelSetEnd false false (front ++ rest) = (findLabelSetEnd false false rest).map (behind front) := by
  induction front with
  | nil => rw [List.nil_append, map_behind_nil]
  | cons char front ih =>
      obtain ⟨hquote, hclose⟩ := h char List.mem_cons_self
      rw [List.cons_append, findLabelSetEnd, if_neg hquote, if_neg hclose,
        ih fun other hother => h other (List.mem_cons_of_mem _ hother), Option.map_map]
      rfl

/-- Inside quotes an escaped character is passed over whatever it is. -/
theorem findLabelSetEnd_escapeChar (char : Char) (rest : List Char) :
    findLabelSetEnd true false (escapeChar char ++ rest) =
      (findLabelSetEnd true false rest).map (behind (escapeChar char)) := by
  unfold escapeChar
  split_ifs with hescape hquote hline
  · simp [findLabelSetEnd, Function.comp_def]
    rfl
  · simp [findLabelSetEnd, Function.comp_def]
    rfl
  · simp [findLabelSetEnd, Function.comp_def]
    rfl
  · have hquoted : (char != '"') = true := bne_iff_ne.mpr hquote
    have hplain : (char == '\\') = false := beq_eq_false_iff_ne.mpr hescape
    simp [findLabelSetEnd, hquoted, hplain]
    rfl

theorem findLabelSetEnd_escapeValue (value rest : List Char) :
    findLabelSetEnd true false (escapeValue value ++ rest) =
      (findLabelSetEnd true false rest).map (behind (escapeValue value)) := by
  induction value with
  | nil => rw [escapeValue, List.flatMap_nil, List.nil_append, map_behind_nil]
  | cons char value ih =>
      have hsplit : escapeValue (char :: value) = escapeChar char ++ escapeValue value := rfl
      rw [hsplit, List.append_assoc, findLabelSetEnd_escapeChar, ih, map_behind_append]

theorem isLabelName_plain {name : List Char} (h : isLabelName name = true) :
    ∀ char ∈ name, char ≠ '"' ∧ char ≠ '\x7d' := by
  have hquote : ('"'.isAlpha || '"' == '_' || '"'.isDigit) = false ∧
      ('\x7d'.isAlpha || '\x7d' == '_' || '\x7d'.isDigit) = false := by decide
  have hchar : ∀ char : Char, (char.isAlpha || char == '_' || char.isDigit) = true → char ≠ '"' ∧ char ≠ '\x7d' := by
    intro char htest
    constructor
    · rintro rfl
      rw [hquote.1] at htest
      cases htest
    · rintro rfl
      rw [hquote.2] at htest
      cases htest
  cases name with
  | nil => cases h
  | cons first rest =>
      obtain ⟨hfirst, hrest⟩ := Bool.and_eq_true_iff.mp h
      intro char hmem
      rcases List.mem_cons.mp hmem with rfl | hmem
      · exact hchar _ (by rw [hfirst, Bool.true_or])
      · exact hchar char (List.all_eq_true.mp hrest char hmem)

theorem findLabelSetEnd_label (label : Label) (rest : List Char) :
    findLabelSetEnd false false (label.render ++ rest) =
      (findLabelSetEnd false false rest).map (behind label.render) := by
  have hclosing : ∀ rest, findLabelSetEnd true false ('"' :: rest) =
      (findLabelSetEnd false false rest).map (behind ['"']) :=
    fun rest => rfl
  have hopening : ∀ rest, findLabelSetEnd false false ('=' :: '"' :: rest) =
      (findLabelSetEnd true false rest).map (behind ['=', '"']) := by
    intro rest
    simp [findLabelSetEnd, Function.comp_def]
    rfl
  have hline : label.render ++ rest =
      label.name ++ '=' :: '"' :: (escapeValue label.value ++ '"' :: rest) := by
    simp [Label.render]
  rw [hline, findLabelSetEnd_plain (isLabelName_plain label.valid), hopening, findLabelSetEnd_escapeValue, hclosing,
    map_behind_append, map_behind_append, map_behind_append]
  simp [Label.render]

theorem findLabelSetEnd_inner (labels : List Label) (after : List Char) :
    findLabelSetEnd false false (renderInner labels ++ '\x7d' :: after) = some (renderInner labels, after) := by
  have hclose : findLabelSetEnd false false ('\x7d' :: after) = some ([], after) := rfl
  have hcomma : ∀ rest, findLabelSetEnd false false (',' :: rest) =
      (findLabelSetEnd false false rest).map (behind [',']) :=
    fun rest => rfl
  induction labels with
  | nil => exact hclose
  | cons label labels ih =>
      cases labels with
      | nil =>
          rw [renderInner, findLabelSetEnd_label, hclose]
          simp [behind]
      | cons next labels =>
          have hsplit : renderInner (label :: next :: labels) = label.render ++
              ',' :: renderInner (next :: labels) := rfl
          rw [hsplit, List.append_assoc, List.cons_append, findLabelSetEnd_label, hcomma, ih]
          simp [behind]

end LabelSet

section Tail

theorem gap_blank (gap : Gap) : ∀ char ∈ gap.val, isAsciiWhitespace char = true ∧ isWhitespace char = true := by
  intro char hchar
  rcases gap.property.2 char hchar with rfl | rfl
  · decide
  · decide

/-- A text that begins with a gap begins with a blank. -/
theorem gap_head (gap : Gap) (rest : List Char) : ∀ char ∈ (gap.val ++ rest).head?, char = ' ' ∨ char = '\t' := by
  obtain ⟨gap, hsome, hblank⟩ := gap
  intro char hchar
  cases gap with
  | nil => exact absurd rfl hsome
  | cons first gap =>
      obtain rfl : first = char := by simpa using hchar
      exact hblank first List.mem_cons_self

theorem trimStart_gap (gap : Gap) {rest : List Char} (hrest : ∀ char ∈ rest.head?, isWhitespace char = false) :
    trimStart (gap.val ++ rest) = rest :=
  (scan_append isWhitespace gap.val rest (fun char hchar => (gap_blank gap char hchar).2) hrest).2

theorem toDigits_isDigit (value : Nat) : ∀ char ∈ Nat.toDigits 10 value, char.isDigit = true :=
  fun _ hchar => Nat.isDigit_of_mem_toDigits (by decide) (by decide) hchar

theorem parseDigits_toDigits (value : Nat) :
    (Nat.toDigits 10 value).foldl (fun value char => value * 10 + (char.toNat - '0'.toNat)) 0 = value := by
  have hread := @Nat.ofDigitChars_ten_toDigits value
  rw [Nat.ofDigitChars_eq_foldl] at hread
  simpa only [Nat.mul_comm] using hread

/-- A timestamp is read back. -/
theorem parseI64_renderI64 (time : SampleTime) : parseI64 (renderI64 time.val) = some time.val := by
  obtain ⟨time, hlow, hhigh⟩ := time
  have hdigits : Nat.toDigits 10 time.natAbs ≠ [] := Nat.toDigits_ne_nil
  have hnone : (Nat.toDigits 10 time.natAbs).any (fun char => !char.isDigit) = false := by
    rw [List.any_eq_false]
    intro char hchar
    rw [toDigits_isDigit _ char hchar]
    exact Bool.false_ne_true
  show parseI64 (renderI64 time) = some time
  unfold renderI64
  split
  · rename_i hnegative
    simp only [parseI64, hdigits, hnone, parseDigits_toDigits, false_or, if_false, if_true, Bool.false_eq_true]
    have hvalue : -(time.natAbs : Int) = time := by omega
    rw [hvalue, if_pos ⟨hlow, hhigh⟩]
  · rename_i hpositive
    obtain ⟨first, rest, hsplit⟩ := List.exists_cons_of_ne_nil hdigits
    have hfirst : first.isDigit = true := toDigits_isDigit time.natAbs first (by rw [hsplit]; exact List.mem_cons_self)
    have hsign : first ≠ '-' ∧ first ≠ '+' := by
      constructor
      · rintro rfl
        cases hfirst
      · rintro rfl
        cases hfirst
    unfold parseI64
    split
    rename_i negative digits hmatch
    have hunsigned : (negative, digits) = (false, Nat.toDigits 10 time.natAbs) := by
      rw [← hmatch, hsplit]
      split
      · rename_i hminus
        exact absurd (List.cons.inj hminus).1 hsign.1
      · rename_i hplus
        exact absurd (List.cons.inj hplus).1 hsign.2
      · rfl
    obtain ⟨rfl, rfl⟩ := Prod.mk.inj hunsigned
    simp only [hdigits, hnone, parseDigits_toDigits, false_or, if_false, Bool.false_eq_true]
    have hvalue : (time.natAbs : Int) = time := by omega
    rw [hvalue, if_pos ⟨hlow, hhigh⟩]

/-- A timestamp begins with a digit or a minus sign and has no blank in it. -/
theorem renderI64_plain (time : Int) : renderI64 time ≠ [] ∧
    ∀ char ∈ renderI64 time, isWhitespace char = false ∧ char ≠ '#' := by
  have hdigit : ∀ char : Char, char.isDigit = true → isWhitespace char = false ∧ char ≠ '#' := by
    intro char hchar
    have hcodes : ∀ code < 128, (Char.ofNat code).isDigit = true →
        isWhitespace (Char.ofNat code) = false ∧ Char.ofNat code ≠ '#' := by decide +kernel
    have hascii : char.toNat < 128 := by
      by_contra hother
      rw [Utf8.isDigit_other (Nat.not_lt.mp hother)] at hchar
      cases hchar
    have hcode := hcodes char.toNat hascii
    rw [Char.ofNat_toNat] at hcode
    exact hcode hchar
  have hdigits : ∀ char ∈ Nat.toDigits 10 time.natAbs, isWhitespace char = false ∧ char ≠ '#' :=
    fun char hchar => hdigit char (toDigits_isDigit _ char hchar)
  unfold renderI64
  split
  · refine ⟨List.cons_ne_nil _ _, ?_⟩
    intro char hchar
    rcases List.mem_cons.mp hchar with rfl | hchar
    · decide
    · exact hdigits char hchar
  · exact ⟨Nat.toDigits_ne_nil, hdigits⟩

/-- A comment, behind its gap or without one in front of it. -/
theorem checkRemainder_comment (text : List Char) : checkRemainder ('#' :: text) = .ok () := by
  rw [checkRemainder, if_pos (.inr rfl)]

/-- A timestamp and what may follow it. -/
theorem checkRemainder_timestamp (time : SampleTime) (rest : List Char)
    (hblank : ∀ char ∈ rest.head?, isWhitespace char = true)
    (hrest : trimStart rest = [] ∨ (trimStart rest).head? = some '#') :
    checkRemainder (renderI64 time.val ++ rest) = .ok () := by
  obtain ⟨hsome, hplain⟩ := renderI64_plain time.val
  obtain ⟨htake, hdrop⟩ := scan_append (fun char => !isWhitespace char) (renderI64 time.val) rest
    (fun char hchar => by rw [(hplain char hchar).1]; rfl) (fun char hchar => by rw [hblank char hchar]; rfl)
  have hstart : ¬(renderI64 time.val ++ rest = [] ∨ (renderI64 time.val ++ rest).head? = some '#') := by
    obtain ⟨first, digits, hsplit⟩ := List.exists_cons_of_ne_nil hsome
    have hfirst := (hplain first (by rw [hsplit]; exact List.mem_cons_self)).2
    rw [hsplit]
    simpa using hfirst
  rw [checkRemainder, if_neg hstart, htake, hdrop]
  simp only [parseI64_renderI64, reduceCtorEq, if_false]
  rw [if_pos hrest]

/-- Whatever a rendered line has behind its value is accepted. -/
theorem checkRemainder_tail (line : SampleLine) : checkRemainder (trimStart line.tail) = .ok () := by
  have hhash : isWhitespace '#' = false := by decide
  have hcomment : ∀ (gap : Gap) (text : List Char), trimStart (gap.val ++ '#' :: text) = '#' :: text := by
    intro gap text
    apply trimStart_gap gap
    intro char hchar
    obtain rfl : '#' = char := by simpa using hchar
    exact hhash
  have htime : ∀ (time : SampleTime) (rest : List Char), ∀ char ∈ (renderI64 time.val ++ rest).head?,
      isWhitespace char = false := by
    intro time rest char hchar
    obtain ⟨hsome, hplain⟩ := renderI64_plain time.val
    obtain ⟨first, digits, hsplit⟩ := List.exists_cons_of_ne_nil hsome
    rw [hsplit] at hchar
    obtain rfl : first = char := by simpa using hchar
    exact (hplain first (by rw [hsplit]; exact List.mem_cons_self)).1
  unfold SampleLine.tail
  cases line.timestamp with
  | none =>
      cases line.comment with
      | none => rfl
      | some comment =>
          obtain ⟨gap, text⟩ := comment
          simp only [List.nil_append]
          rw [hcomment]
          exact checkRemainder_comment text
  | some stamp =>
      obtain ⟨gap, time⟩ := stamp
      cases line.comment with
      | none =>
          simp only [List.append_nil]
          have hstart := htime time []
          rw [List.append_nil] at hstart
          rw [trimStart_gap gap hstart]
          have hchecked := checkRemainder_timestamp time [] (by simp) (.inl rfl)
          rwa [List.append_nil] at hchecked
      | some comment =>
          obtain ⟨commentGap, text⟩ := comment
          simp only [List.append_assoc]
          rw [trimStart_gap gap (htime time _)]
          refine checkRemainder_timestamp time _ ?_ (.inr (by rw [hcomment]; rfl))
          intro char hchar
          rcases gap_head commentGap ('#' :: text) char hchar with rfl | rfl
          · decide
          · decide

end Tail

namespace SampleLine

/-- Behind the value there is a blank or nothing. -/
theorem tail_head (line : SampleLine) : ∀ char ∈ line.tail.head?, isAsciiWhitespace char = true := by
  have hgap : ∀ (gap : Gap) (rest : List Char), ∀ char ∈ (gap.val ++ rest).head?, isAsciiWhitespace char = true := by
    intro gap rest char hchar
    rcases gap_head gap rest char hchar with rfl | rfl
    · decide
    · decide
  unfold tail
  cases line.timestamp with
  | none =>
      cases line.comment with
      | none => simp
      | some comment => exact hgap comment.1 ('#' :: comment.2)
  | some stamp =>
      simp only [List.append_assoc]
      exact hgap stamp.1 _

theorem parseValue_render (line : SampleLine) :
    parseValue (line.gap.val ++ (line.value ++ line.tail)) = .ok (line.value, trimStart line.tail) := by
  obtain ⟨first, value, hvalue⟩ := List.exists_cons_of_ne_nil line.valueSome
  have hfirst : isAsciiWhitespace first = false := line.valuePlain first (by rw [hvalue]; exact List.mem_cons_self)
  have hblank : (line.gap.val ++ (line.value ++ line.tail)).head?.any isAsciiWhitespace = true := by
    obtain ⟨char, rest, hgap⟩ := List.exists_cons_of_ne_nil line.gap.property.1
    have hchar := (gap_blank line.gap char (by rw [hgap]; exact List.mem_cons_self)).1
    rw [hgap]
    simpa using hchar
  have hdrop : (line.gap.val ++ (line.value ++ line.tail)).dropWhile isAsciiWhitespace = line.value ++ line.tail := by
    refine (scan_append isAsciiWhitespace line.gap.val _ (fun char hchar => (gap_blank line.gap char hchar).1) ?_).2
    intro char hchar
    rw [hvalue] at hchar
    obtain rfl : first = char := by simpa using hchar
    exact hfirst
  obtain ⟨htake, hrest⟩ := scan_append (fun char => !isAsciiWhitespace char) line.value line.tail
    (fun char hchar => by rw [line.valuePlain char hchar]; rfl)
    (fun char hchar => by rw [line.tail_head char hchar]; rfl)
  have hsome : line.value ++ line.tail ≠ [] := List.append_ne_nil_of_left_ne_nil line.valueSome _
  simp only [parseValue, hblank, hdrop, htake, hrest, hsome, Bool.not_true, Bool.false_eq_true, if_false]

/-- The labels are cut off whole, and what follows is left. -/
theorem parseLabels_render (line : SampleLine) :
    parseLabels ((line.labels.map renderLabels).getD [] ++ (line.gap.val ++ (line.value ++ line.tail))) =
      .ok (line.labels.map renderLabels, line.gap.val ++ (line.value ++ line.tail)) := by
  cases line.labels with
  | none =>
      rw [Option.map_none, Option.getD_none, List.nil_append]
      unfold parseLabels
      split
      · rename_i rest hbrace
        have hhead := gap_head line.gap (line.value ++ line.tail) '\x7b' (by rw [hbrace]; rfl)
        exact absurd hhead (by decide)
      · rfl
  | some labels =>
      have hopen : renderLabels labels ++ (line.gap.val ++ (line.value ++ line.tail)) =
          '\x7b' :: (renderInner labels ++ '\x7d' :: (line.gap.val ++ (line.value ++ line.tail))) := by
        simp [renderLabels]
      rw [Option.map_some, Option.getD_some, hopen, parseLabels, findLabelSetEnd_inner]
      rfl

/-- The name ends where the labels or the first gap begin. -/
theorem name_render (line : SampleLine) :
    line.render.takeWhile isMetricNameContinue = line.name ∧
      line.render.dropWhile isMetricNameContinue =
        (line.labels.map renderLabels).getD [] ++ (line.gap.val ++ (line.value ++ line.tail)) := by
  apply scan_append isMetricNameContinue line.name _ line.nameContinue
  intro char hchar
  cases hlabels : line.labels with
  | none =>
      rw [hlabels, Option.map_none, Option.getD_none, List.nil_append] at hchar
      rcases gap_head line.gap _ char hchar with rfl | rfl
      · decide
      · decide
  | some labels =>
      rw [hlabels, Option.map_some, Option.getD_some] at hchar
      obtain rfl : '\x7b' = char := by simpa [renderLabels] using hchar
      decide

/-- A rendered line is read back. -/
theorem parseSampleLine_render (line : SampleLine) :
    parseSampleLine line.render = .ok ⟨line.name, line.labels.map renderLabels, line.value⟩ := by
  obtain ⟨first, rest, hfirst⟩ : ∃ first rest, line.name = first :: rest := by
    apply List.exists_cons_of_ne_nil
    intro hnone
    have hstart := line.nameStart
    rw [hnone] at hstart
    cases hstart
  have hstart : line.render.head?.any isMetricNameStart = true := by
    have hstart := line.nameStart
    rw [hfirst] at hstart
    rw [SampleLine.render, hfirst]
    exact hstart
  obtain ⟨hname, hrest⟩ := line.name_render
  have hvalid : ¬(line.name = [] ∨ (!(line.render.head?.any isMetricNameStart)) = true) := by
    rw [hstart, hfirst]
    simp
  rw [parseSampleLine_eq, hname, hrest, if_neg hvalid, line.parseLabels_render]
  simp only [line.parseValue_render, checkRemainder_tail]

end SampleLine

/-- A rendered line is read back, whatever its label values contain. On any text the parser returns a result, and a name
that it returns is the one that the other scanner of names finds. -/
theorem parse_undoes_rendering :
    (∀ line : SampleLine, parseSampleLineBytes line.render =
      some (.ok ⟨line.name, line.labels.map renderLabels, line.value⟩)) ∧
    ∀ text : List Char, ∃ result, parseSampleLineBytes text = some result ∧
      ∀ sample, result = .ok sample → metricNamePrefixBytes text = some sample.name := by
  constructor
  · intro line
    rw [parseSampleLineBytes_eq, line.parseSampleLine_render]
  · intro text
    refine ⟨parseSampleLine text, parseSampleLineBytes_eq text, ?_⟩
    intro sample hsample
    rw [metricNamePrefixBytes_eq, parseSampleLine_name hsample]

/-- Braces, quotes, a hash and a letter of two bytes inside a label value, and then a timestamp and a comment. -/
def labelledLine : SampleLine where
  name := "a_total".toList
  labels := some [⟨"l".toList, "\x7d # é\"".toList, by decide⟩, ⟨"m_1".toList, "\\\n".toList, by decide⟩]
  gap := ⟨[' ', '\t'], by simp⟩
  value := "1.5".toList
  timestamp := some (⟨[' '], by simp⟩, ⟨-7, by decide⟩)
  comment := some (⟨[' '], by simp⟩, " c".toList)
  nameStart := by decide
  nameContinue := List.all_eq_true.mp (by decide)
  valueSome := by decide
  valuePlain := by simp [isAsciiWhitespace]

theorem parse_undoes_rendering_labelled :
    parseSampleLineBytes "a_total\x7bl=\"\x7d # é\\\"\",m_1=\"\\\\\\n\"\x7d \t1.5 -7 # c".toList =
      some (.ok ⟨"a_total".toList, some "\x7bl=\"\x7d # é\\\"\",m_1=\"\\\\\\n\"\x7d".toList, "1.5".toList⟩) := by
  have hline : labelledLine.render =
      "a_total\x7bl=\"\x7d # é\\\"\",m_1=\"\\\\\\n\"\x7d \t1.5 -7 # c".toList := by decide +kernel
  have hlabels : labelledLine.labels.map renderLabels =
      some "\x7bl=\"\x7d # é\\\"\",m_1=\"\\\\\\n\"\x7d".toList := by decide +kernel
  rw [← hline, ← hlabels]
  exact parse_undoes_rendering.1 labelledLine

end MistralrsProxy
