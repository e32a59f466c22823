import Abacus.Proofs.Adjacency
import Abacus.Proofs.CommandLine

/-! # The two forms of the switch for an expression

The value of a switch may be the next word, but a word that begins with a dash is taken as a value
only if it could not be a switch and holds a space or writes a negative number. The short form of
the switch for an expression does the same as the long form with the expression attached exactly if
the expression, as a word, is taken as a value; otherwise it is refused.
-/
namespace Abacus.Console

theorem Switch.longName_of_ofLongName? {name : String} {s : Switch}
    (h : ofLongName? name = some s) : s.longName = name := by
  unfold ofLongName? at h
  have hname := List.find?_some h
  exact of_decide_eq_true hname

namespace Word

/-- The word is read as a switch: the letter of a short one with anything behind it, or a long name
or its beginning, alone or with text attached. -/
inductive WritesSwitch : List Char → Prop where
  | short {s : Switch} {letter : Char} (h : s.letter? = some letter) (rest : List Char) :
      WritesSwitch ('-' :: letter :: rest)
  | long {s : Switch} {stem rest : List Char} (h : '-' :: '-' :: stem <+: s.longName.toList)
      (hrest : ∀ c ∈ rest.head?, c = '=') : WritesSwitch ('-' :: '-' :: stem ++ rest)

/-- A negative integer or decimal fraction, in digits of any script. -/
inductive NegativeNumber : List Char → Prop where
  | integer {digits : List Char} (hne : digits ≠ [])
      (h : ∀ c ∈ digits, Text.isDecimalDigit c = true) : NegativeNumber ('-' :: digits)
  | fraction {whole digits : List Char} (hw : ∀ c ∈ whole, Text.isDecimalDigit c = true)
      (hne : digits ≠ []) (h : ∀ c ∈ digits, Text.isDecimalDigit c = true) :
      NegativeNumber ('-' :: whole ++ '.' :: digits)

/-- The word has the looks of a value: it holds a space, or it is a negative number, which a line
feed may end. -/
def LooksPlain (cs : List Char) : Prop :=
  ' ' ∈ cs ∨ NegativeNumber cs ∨ ∃ ds, cs = ds ++ ['\n'] ∧ NegativeNumber ds

def IsValue (cs : List Char) : Prop :=
  cs.head? = some '-' → cs = ['-'] ∨ ¬ WritesSwitch cs ∧ LooksPlain cs

def isNegativeNumber : List Char → Bool
  | '-' :: number =>
    match number.dropWhile Text.isDecimalDigit with
    | [] => number ≠ []
    | '.' :: digits => digits ≠ [] && digits.all Text.isDecimalDigit
    | _ => false
  | _ => false

theorem looksNegative_eq (cs : List Char) : looksNegative cs =
    if cs.getLast? = some '\n' then isNegativeNumber cs.dropLast else isNegativeNumber cs := by
  unfold looksNegative
  split <;> rfl

theorem isNegativeNumber_iff {cs : List Char} : isNegativeNumber cs = true ↔ NegativeNumber cs := by
  constructor
  · intro h
    unfold isNegativeNumber at h
    split at h
    next number =>
      have hsplit : number.takeWhile Text.isDecimalDigit ++ number.dropWhile Text.isDecimalDigit =
          number := List.takeWhile_append_dropWhile
      have hwhole : ∀ c ∈ number.takeWhile Text.isDecimalDigit, Text.isDecimalDigit c = true :=
        fun c hc => List.mem_takeWhile_imp hc
      split at h
      next hrest =>
        rw [hrest, List.append_nil] at hsplit
        rw [hsplit] at hwhole
        exact .integer (of_decide_eq_true h) hwhole
      next digits hrest =>
        rw [Bool.and_eq_true, decide_eq_true_iff, List.all_eq_true] at h
        rw [hrest] at hsplit
        rw [← hsplit]
        exact .fraction hwhole h.1 h.2
      next => cases h
    next => cases h
  · rintro (⟨hne, h⟩ | ⟨hw, hne, h⟩)
    · rw [isNegativeNumber, List.dropWhile_eq_nil_iff.mpr h]
      exact decide_eq_true hne
    · have hpoint : Text.isDecimalDigit '.' = false := by decide +kernel
      rw [List.cons_append, isNegativeNumber, List.dropWhile_append_of_pos hw,
        List.dropWhile_cons_of_neg (by simp [hpoint])]
      simpa [hne] using h

theorem NegativeNumber.getLast?_ne {cs : List Char} (h : NegativeNumber cs) :
    cs.getLast? ≠ some '\n' := by
  have hdigits {ds : List Char} (hne : ds ≠ []) (hds : ∀ c ∈ ds, Text.isDecimalDigit c = true)
      (before : List Char) : (before ++ ds).getLast? ≠ some '\n' := by
    rw [List.getLast?_append_of_ne_nil before hne]
    intro hlast
    exact absurd (hds '\n' (List.mem_of_getLast? hlast)) (by decide +kernel)
  cases h with
  | integer hne h => exact hdigits hne h ['-']
  | @fraction whole digits hw hne h =>
    rw [List.append_cons]
    exact hdigits hne h _

theorem looksNegative_iff {cs : List Char} : looksNegative cs = true ↔
    NegativeNumber cs ∨ ∃ ds, cs = ds ++ ['\n'] ∧ NegativeNumber ds := by
  rw [looksNegative_eq]
  split
  next hlast =>
    obtain ⟨ds, rfl⟩ := List.getLast?_eq_some_iff.mp hlast
    rw [List.dropLast_concat, isNegativeNumber_iff]
    constructor
    · intro h
      exact .inr ⟨ds, rfl, h⟩
    · rintro (h | ⟨es, hes, h⟩)
      · exact absurd hlast h.getLast?_ne
      · rwa [List.append_cancel_right hes]
  next hlast =>
    rw [isNegativeNumber_iff]
    constructor
    · exact .inl
    · rintro (h | ⟨ds, rfl, -⟩)
      · exact h
      · exact absurd List.getLast?_concat hlast

theorem mem_startingWith {stem : List Char} {s : Switch} :
    s ∈ Switch.startingWith (String.ofList stem) ↔ stem <+: s.longName.toList := by
  simp [Switch.startingWith, s.mem_all]

theorem cut_fst_eq_iff {cs stem : List Char} : (cut cs).1 = stem ↔
    '=' ∉ stem ∧ ∃ rest, cs = stem ++ rest ∧ ∀ c ∈ rest.head?, c = '=' := by
  constructor
  · rintro rfl
    by_cases h : '=' ∈ cs
    · obtain ⟨stem, text, rfl, hstem⟩ := List.eq_append_cons_of_mem h
      rw [cut_append hstem]
      exact ⟨hstem, '=' :: text, rfl, by simp⟩
    · rw [cut_of_not_mem h]
      exact ⟨h, [], by simp, by simp⟩
  · rintro ⟨hstem, rest, rfl, hrest⟩
    cases rest with
    | nil => rw [List.append_nil, cut_of_not_mem hstem]
    | cons c text =>
      obtain rfl : c = '=' := hrest c rfl
      rw [cut_append hstem]

theorem letter?_ne_dash (s : Switch) : s.letter? ≠ some '-' := by
  cases s <;> decide

/-- A word that begins with two dashes is read as a switch exactly if what stands before the first
`=` is the beginning of a long name. -/
theorem writesSwitch_iff_exists_prefix (rest : List Char) :
    WritesSwitch ('-' :: '-' :: rest) ↔
      ∃ s : Switch, (cut ('-' :: '-' :: rest)).1 <+: s.longName.toList := by
  constructor
  · intro h
    cases h with
    | @short s _ h => exact absurd h (letter?_ne_dash s)
    | @long s stem tail h htail =>
      obtain ⟨-, -, hequals⟩ := s.exists_longName
      have hcut : (cut ('-' :: '-' :: stem ++ tail)).1 = '-' :: '-' :: stem :=
        cut_fst_eq_iff.mpr ⟨fun hmem => hequals (h.subset hmem), tail, rfl, htail⟩
      refine ⟨s, ?_⟩
      change (cut ('-' :: '-' :: stem ++ tail)).1 <+: _
      rwa [hcut]
  · rintro ⟨s, hs⟩
    obtain ⟨-, tail, hword, htail⟩ := cut_fst_eq_iff.mp (rfl : (cut ('-' :: '-' :: rest)).1 = _)
    generalize (cut ('-' :: '-' :: rest)).1 = stem at hs hword
    rcases stem with _ | ⟨c, _ | ⟨d, stem⟩⟩
    · rw [List.nil_append] at hword
      exact absurd (htail '-' (hword ▸ rfl)) (by decide)
    · have htail' : '-' :: rest = tail := (List.cons.inj hword).2
      exact absurd (htail '-' (htail' ▸ rfl)) (by decide)
    · simp only [List.cons_append, List.cons.injEq] at hword
      obtain ⟨rfl, rfl, rfl⟩ := hword
      exact .long hs htail

theorem writesSwitch_iff_ofLetter? {letter : Char} (hl : letter ≠ '-') {rest : List Char} :
    WritesSwitch ('-' :: letter :: rest) ↔ Switch.ofLetter? letter ≠ none := by
  rw [Switch.ofLetter?, ne_eq, List.find?_eq_none]
  constructor
  · intro h hnone
    cases h with
    | @short s _ h => exact hnone s s.mem_all (decide_eq_true h)
    | long => exact hl rfl
  · intro h
    push Not at h
    obtain ⟨s, -, hs⟩ := h
    exact .short (of_decide_eq_true hs) rest

theorem ofStray_eq_plain_iff {word : String} :
    ofStray word = .plain word ↔ LooksPlain word.toList := by
  rw [LooksPlain, ← looksNegative_iff, or_comm, ← decide_eq_true_iff (p := ' ' ∈ word.toList),
    ← Bool.or_eq_true, ofStray]
  cases looksNegative word.toList || decide (' ' ∈ word.toList) <;> simp

theorem ofLong_eq_plain_iff {word : String} {rest : List Char}
    (hword : word.toList = '-' :: '-' :: rest) :
    ofLong word = .ok (.plain word) ↔
      ¬ WritesSwitch word.toList ∧ ofStray word = .plain word := by
  have hwrites := writesSwitch_iff_exists_prefix rest
  rw [← hword] at hwrites
  rw [ofLong, hwrites]
  cases hname : Switch.ofLongName? (String.ofList (cut word.toList).1) with
  | some s =>
    have hstem : s.longName.toList = (cut word.toList).1 := by
      rw [Switch.longName_of_ofLongName? hname, String.toList_ofList]
    have hprefix : (cut word.toList).1 <+: s.longName.toList := hstem ▸ List.prefix_refl _
    simp only [hname, Except.ok.injEq, reduceCtorEq, false_iff, not_and]
    exact fun hnone => absurd ⟨s, hprefix⟩ hnone
  | none =>
    simp only [← mem_startingWith, hname]
    rcases Switch.startingWith (String.ofList (cut word.toList).1) with _ | ⟨s, _ | ⟨t, more⟩⟩
    · simp
    · simp
    · simp

theorem ofShort_eq_plain_iff {word : String} {letter : Char} (hl : letter ≠ '-')
    {rest : List Char} (hword : word.toList = '-' :: letter :: rest) :
    ofShort word letter rest = .plain word ↔
      ¬ WritesSwitch word.toList ∧ ofStray word = .plain word := by
  rw [hword, writesSwitch_iff_ofLetter? hl, ofShort]
  cases Switch.ofLetter? letter <;> simp

theorem read_eq_plain_iff {word : String} :
    read word = .ok (.plain word) ↔ IsValue word.toList := by
  have hdashed {letter : Char} {rest : List Char} (hword : word.toList = '-' :: letter :: rest) :
      IsValue word.toList ↔ ¬ WritesSwitch word.toList ∧ ofStray word = .plain word := by
    rw [ofStray_eq_plain_iff, IsValue, hword]
    simp
  rw [read]
  split
  next rest hword => rw [ofLong_eq_plain_iff hword, hdashed hword]
  next letter rest hletter hword =>
    have hl : letter ≠ '-' := fun heq => hletter heq
    rw [Except.ok.injEq, ofShort_eq_plain_iff hl hword, hdashed hword]
  next _ hshort =>
    refine iff_of_true rfl fun hdash => ?_
    rcases hword : word.toList with _ | ⟨c, _ | ⟨d, rest⟩⟩
    · simp [hword] at hdash
    · exact .inl (by simpa [hword] using hdash)
    · obtain rfl : c = '-' := by simpa [hword] using hdash
      exact absurd hword (hshort d rest)

theorem read_plain {word text : String} (h : read word = .ok (.plain text)) : text = word := by
  have hstray (h : ofStray word = .plain text) : text = word := by
    unfold ofStray at h
    split at h
    · exact (Word.plain.inj h).symm
    · cases h
  unfold read at h
  split at h
  · unfold ofLong at h
    dsimp only at h
    split at h
    · cases h
    · split at h
      · exact hstray (Except.ok.inj h)
      · cases h
      · cases h
  · have hshort := Except.ok.inj h
    unfold ofShort at hshort
    split at hshort
    · cases hshort
    · exact hstray hshort
  · exact (Word.plain.inj (Except.ok.inj h)).symm

end Word

namespace Request

theorem read_short : Word.read "-e" = .ok (.switch .expression true none) := by
  decide +kernel

theorem ofArguments_short {e : String} (h : Word.IsValue e.toList) :
    ofArguments ["-e", e] = .ok { expression := some e } := by
  rw [ofArguments, Word.readAll_cons read_short, Word.readAll_cons (Word.read_eq_plain_iff.mpr h)]
  rfl

theorem ofArguments_short_refused {e : String} (h : ¬ Word.IsValue e.toList) :
    ∃ error, ofArguments ["-e", e] = .error (.usage error) := by
  rw [ofArguments, Word.readAll_cons read_short, Word.readAll]
  by_cases hseparator : e = "--"
  · rw [if_pos hseparator]
    exact ⟨_, rfl⟩
  · rw [if_neg hseparator]
    cases hread : Word.read e with
    | error error => exact ⟨error, rfl⟩
    | ok w =>
      cases w with
      | plain text =>
        obtain rfl := Word.read_plain hread
        exact absurd (Word.read_eq_plain_iff.mp hread) h
      | separator | switch | unknown => exact ⟨_, rfl⟩

end Request

section
variable {c : Calculator} {e : String} {v : Int}

theorem isDigit_of_value (hv : (c.calculate (some e)).answer = .ok v) {rest : List Char}
    (he : e.toList = '-' :: rest) : ∃ d ∈ (Text.ink rest).head?, d.isDigit = true := by
  obtain ⟨ts, hts, -⟩ := Calculator.answer_calculate_eq_ok_iff.mp hv
  have hfit := (tokenize_eq_ok_iff.mp hts).fitting
  have hink : (Glyph.ofText e).map (·.char) = Text.ink e.toList := Glyph.map_char_ofText e
  have hdash : Text.ink ('-' :: rest) = '-' :: Text.ink rest :=
    List.filter_cons_of_pos (by decide)
  rw [hink, he, hdash] at hfit
  exact (hfit [] '-' _ rfl).sign (.inr rfl) (by simp)

/-- No text with a value could be a switch. -/
theorem not_writesSwitch_of_value (hv : (c.calculate (some e)).answer = .ok v) :
    ¬ Word.WritesSwitch e.toList := by
  have hsecond {d : Char} {rest : List Char} (he : e.toList = '-' :: d :: rest)
      (hblank : Text.isBlank d = false) : d.isDigit = true := by
    obtain ⟨d', hd, hdigit⟩ := isDigit_of_value hv he
    rw [Text.ink, List.filter_cons_of_pos (by simp [hblank])] at hd
    rwa [Option.some.inj hd]
  intro hwrites
  generalize hcs : e.toList = cs at hwrites
  cases hwrites with
  | @short s letter h rest =>
    have hletter : Text.isBlank letter = false ∧ letter.isDigit = false := by
      cases s <;> cases h <;> decide
    exact Bool.false_ne_true (hletter.2.symm.trans (hsecond hcs hletter.1))
  | long => exact absurd (hsecond hcs (by decide)) (by decide)

theorem isValue_iff_of_value (hv : (c.calculate (some e)).answer = .ok v) :
    Word.IsValue e.toList ↔ (e.toList.head? = some '-' → Word.LooksPlain e.toList) := by
  have hdash : e.toList ≠ ['-'] := by
    intro he
    obtain ⟨d, hd, -⟩ := isDigit_of_value hv he
    cases hd
  simp [Word.IsValue, hdash, not_writesSwitch_of_value hv]

end

/-- The two forms of the switch for an expression do the same exactly if the expression, as a word
of its own, is the value of a switch. Otherwise the short form is refused, so that it depends on the
looks of an expression whether its value is put out. -/
theorem forms_agree_iff (e : String) (inputEnd : InputEnd) (input stamp : String) :
    let short := command ["-e", e] inputEnd input
    let long := command ["--expression=" ++ e] inputEnd input
    (short.shown stamp = long.shown stamp ↔ Word.IsValue e.toList) ∧
      (¬ Word.IsValue e.toList → short.status = 2 ∧ (short.shown stamp).output = "") ∧
      ∀ (c : Calculator) (v : Int), (c.calculate (some e)).answer = .ok v →
        long.status = 0 ∧
          (short.status = 0 ↔ (e.toList.head? = some '-' → Word.LooksPlain e.toList)) := by
  intro short long
  have hlong : long = ({ expression := some e } : Request).serve inputEnd input :=
    command_of_request (Request.ofArguments_expression [] [] e) inputEnd input
  have hsame (h : Word.IsValue e.toList) : short = long := by
    rw [hlong]
    exact command_of_request (Request.ofArguments_short h) inputEnd input
  have hrefused (h : ¬ Word.IsValue e.toList) :
      short.status = 2 ∧ (short.shown stamp).output = "" := by
    obtain ⟨error, herror⟩ := Request.ofArguments_short_refused h
    have hshort : short = (Refusal.usage error).report := by
      change command ["-e", e] inputEnd input = _
      rw [command, herror]
    rw [hshort]
    exact ⟨rfl, rfl⟩
  have hserved : long.status ≠ 2 := by
    rw [hlong, status_serve rfl inputEnd input oneShotCalculator]
    cases (oneShotCalculator.calculate (some e)).answer <;> simp
  refine ⟨⟨fun hshown => ?_, fun h => congrArg _ (hsame h)⟩, hrefused, fun c v hv => ?_⟩
  · by_contra h
    exact hserved ((congrArg Seen.status hshown).symm.trans (hrefused h).1)
  · have hzero : long.status = 0 := by rw [hlong, status_serve rfl inputEnd input c, hv]
    refine ⟨hzero, ?_⟩
    rw [← isValue_iff_of_value hv]
    constructor
    · intro h
      by_contra hvalue
      rw [(hrefused hvalue).1] at h
      cases h
    · intro h
      rw [hsame h, hzero]

/-- The sum has a value, and the long form puts it out. The short form takes the sum for a switch
that does not exist. -/
theorem signed_sum_refused :
    (oneShotCalculator.calculate (some "-5+3")).answer = .ok (-2) ∧
      (command ["--expression=-5+3"] .closed "").shown "" = ⟨0, "-2\n", ""⟩ ∧
      (command ["-e", "-5+3"] .closed "").shown "" =
        ⟨2, "", (UsageError.missingValue .expression).text⟩ := by
  decide +kernel

example : (command ["-e", "-5 +3"] .closed "").shown "" = ⟨0, "-2\n", ""⟩ := by
  decide +kernel

end Abacus.Console
