import Abacus.Proofs.Conversation
import Abacus.Proofs.Numerals
import Mathlib.Tactic.SplitIfs

/-! # Texts on one line

A line ends not at a line feed alone. All characters that end one are blank and none is printable,
so a text that is quoted stays on its line, and so does one without blanks. Lines that hold no such
character can be told apart again where they stand below each other.
-/
namespace Abacus.Text

/-- The characters of ASCII from the space to the tilde. -/
def isPlain (c : Char) : Bool := 0x20 ≤ c.toNat && c.toNat < 0x7f

theorem isPrintable_of_isPlain (c : Char) (h : isPlain c = true) : isPrintable c = true := by
  rw [isPlain, Bool.and_eq_true, decide_eq_true_eq, decide_eq_true_eq] at h
  exact isPrintable_of_ascii h.1 h.2

theorem isPlain_of_isDigit {d : Char} (h : d.isDigit = true) : isPlain d = true := by
  have hbounds := Decimal.digit_bounds h
  rw [isPlain, Bool.and_eq_true, decide_eq_true_eq, decide_eq_true_eq]
  omega

section
variable {p : Char → Bool}

theorem all_append {s t : String} (hs : s.toList.all p = true) (ht : t.toList.all p = true) :
    (s ++ t).toList.all p = true := by
  rw [String.toList_append, List.all_append, hs, ht]
  rfl

theorem all_between {before s after : String} (hbefore : before.toList.all p = true)
    (hs : s.toList.all p = true) (hafter : after.toList.all p = true) :
    (before ++ s ++ after).toList.all p = true :=
  all_append (all_append hbefore hs) hafter

/-- A text that is written out in plain characters passes each test that these pass. -/
theorem all_of_plain (hp : ∀ c, isPlain c = true → p c = true) {cs : List Char}
    (h : cs.all isPlain = true) : (String.ofList cs).toList.all p = true := by
  rw [String.toList_ofList, List.all_eq_true]
  intro c hc
  exact hp c (List.all_eq_true.mp h c hc)

end

/-- The code points that end a line in one reading of texts or another. -/
def lineBreaks : List Nat := [0xa, 0xb, 0xc, 0xd, 0x1c, 0x1d, 0x1e, 0x85, 0x2028, 0x2029]

def breaksLine (c : Char) : Bool := c.toNat ∈ lineBreaks

def isOneLine (s : String) : Bool := s.toList.all (!breaksLine ·)

private theorem covers_lineBreaks :
    ∀ n ∈ lineBreaks, covers blankRanges n = true ∧ covers unprintableRanges n = true := by
  decide +kernel

theorem breaksLine_of_not_isBlank {c : Char} (h : isBlank c = false) : breaksLine c = false := by
  by_contra hbreak
  rw [Bool.not_eq_false, breaksLine, decide_eq_true_eq] at hbreak
  have hblank : isBlank c = true := (covers_lineBreaks _ hbreak).1
  rw [h] at hblank
  cases hblank

theorem breaksLine_of_isPrintable {c : Char} (h : isPrintable c = true) : breaksLine c = false := by
  by_contra hbreak
  rw [Bool.not_eq_false, breaksLine, decide_eq_true_eq] at hbreak
  rw [isPrintable, (covers_lineBreaks _ hbreak).2] at h
  cases h

theorem breaksLine_of_isPlain (c : Char) (h : isPlain c = true) : (!breaksLine c) = true := by
  rw [breaksLine_of_isPrintable (isPrintable_of_isPlain c h)]
  rfl

theorem isOneLine_of_plain {cs : List Char} (h : cs.all isPlain = true) :
    isOneLine (String.ofList cs) = true :=
  all_of_plain breaksLine_of_isPlain h

theorem isOneLine_iff {s : String} : isOneLine s = true ↔ ∀ c ∈ s.toList, breaksLine c = false := by
  simp [isOneLine]

theorem isOneLine_of_isPrintableText {s : String} (h : isPrintableText s = true) :
    isOneLine s = true := by
  rw [isPrintableText, List.all_eq_true] at h
  rw [isOneLine_iff]
  intro c hc
  exact breaksLine_of_isPrintable (h c hc)

theorem newline_not_mem {s : String} (h : isOneLine s = true) : '\n' ∉ s.toList := by
  intro hmem
  have hnewline := isOneLine_iff.mp h '\n' hmem
  exact absurd hnewline (by decide)

theorem exists_digitChar_of_mem_toDigits {b n : Nat} (hb : 1 < b) {c : Char}
    (h : c ∈ Nat.toDigits b n) : ∃ k < b, c = Nat.digitChar k := by
  induction n using Nat.strongRecOn with
  | ind n ih =>
    rw [Nat.toDigits_eq_if hb] at h
    split at h
    · exact ⟨n, by assumption, List.mem_singleton.mp h⟩
    · rcases List.mem_append.mp h with h | h
      · exact ih (n / b) (Nat.div_lt_self (by omega) hb) h
      · exact ⟨n % b, Nat.mod_lt n (by omega), List.mem_singleton.mp h⟩

theorem exists_digitChar_of_mem_hexadecimal {width n : Nat} {c : Char}
    (h : c ∈ hexadecimal width n) : ∃ k < 16, c = Nat.digitChar k := by
  rw [hexadecimal, List.leftpad, List.mem_append] at h
  rcases h with h | h
  · exact ⟨0, by decide, List.eq_of_mem_replicate h⟩
  · exact exists_digitChar_of_mem_toDigits (by decide) h

theorem isPlain_digitChar :
    ∀ k < 16, isPlain k.digitChar = true ∧ isPlain k.digitChar.toUpper = true := by
  decide

theorem isPrintable_of_mem_hexadecimal {width n : Nat} :
    ∀ c ∈ hexadecimal width n, isPrintable c = true := by
  intro c hc
  obtain ⟨k, hk, rfl⟩ := exists_digitChar_of_mem_hexadecimal hc
  exact isPrintable_of_isPlain _ (isPlain_digitChar k hk).1

theorem all_render {p : Char → Bool} (hp : ∀ c, isPlain c = true → p c = true) (v : Int) :
    (Decimal.render v).toList.all p = true := by
  have hdigits : ∀ c ∈ Nat.toDigits 10 v.natAbs, p c = true := by
    intro c hc
    obtain ⟨k, hk, rfl⟩ := exists_digitChar_of_mem_toDigits (by decide) hc
    exact hp _ (isPlain_digitChar k (by omega)).1
  rw [List.all_eq_true, Decimal.toList_render]
  by_cases hv : v < 0
  · rw [if_pos hv, List.forall_mem_cons]
    exact ⟨hp '-' (by decide), hdigits⟩
  · rw [if_neg hv]
    exact hdigits

theorem isPrintable_enclosingQuote (cs : List Char) : isPrintable (enclosingQuote cs) = true := by
  unfold enclosingQuote
  split <;> decide

theorem isPrintable_of_mem_escaped {quote c : Char} (hq : isPrintable quote = true) :
    ∀ d ∈ escaped quote c, isPrintable d = true := by
  have hbackslash : isPrintable '\\' = true := by decide
  have hpair {x : Char} (hx : isPrintable x = true) : ∀ d ∈ ['\\', x], isPrintable d = true := by
    rw [List.forall_mem_cons, List.forall_mem_singleton]
    exact ⟨hbackslash, hx⟩
  unfold escaped
  split_ifs with hself hfeed hreturn htab hplain
  · apply hpair
    rcases hself with rfl | rfl
    · exact hq
    · exact hbackslash
  · exact hpair (by decide)
  · exact hpair (by decide)
  · exact hpair (by decide)
  · rw [List.forall_mem_singleton]
    exact hplain
  all_goals
    rw [List.forall_mem_cons, List.forall_mem_cons]
    exact ⟨hbackslash, by decide, isPrintable_of_mem_hexadecimal⟩

/-- Whatever a text holds, it is quoted in printable characters. -/
theorem isPrintableText_quoted (s : String) : isPrintableText (quoted s) = true := by
  have hquote := isPrintable_enclosingQuote s.toList
  rw [isPrintableText, List.all_eq_true, quoted, String.toList_ofList, List.forall_mem_append,
    List.forall_mem_cons, List.forall_mem_singleton]
  refine ⟨⟨hquote, ?_⟩, hquote⟩
  intro d hd
  obtain ⟨c, -, hd⟩ := List.mem_flatMap.mp hd
  exact isPrintable_of_mem_escaped hquote d hd

theorem lines_joinLines {ls : List String} (h : ∀ l ∈ ls, isOneLine l = true) :
    lines (joinLines ls) = ls.map (· ++ "\n") := by
  induction ls with
  | nil => rfl
  | cons l ls ih =>
    rw [List.forall_mem_cons] at h
    have hjoin : joinLines (l :: ls) = l ++ "\n" ++ joinLines ls := by
      rw [joinLines, List.map_cons, String.join_cons, joinLines]
    rw [hjoin, lines_line (newline_not_mem h.1), ih h.2, List.map_cons]

theorem joinLines_injective {ls ms : List String} (hls : ∀ l ∈ ls, isOneLine l = true)
    (hms : ∀ m ∈ ms, isOneLine m = true) (h : joinLines ls = joinLines ms) : ls = ms := by
  have hlines : ls.map (· ++ "\n") = ms.map (· ++ "\n") := by
    rw [← lines_joinLines hls, ← lines_joinLines hms, h]
  refine List.map_injective_iff.mpr ?_ hlines
  intro l m hlm
  exact (String.append_left_inj "\n").mp hlm

end Abacus.Text
