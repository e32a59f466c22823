import Abacus.Proofs.Adjacency
import Abacus.Proofs.Correspondence
import Abacus.Proofs.Spelling

/-! # Texts one behind the other

A scan never looks back at the tokens that it has read, and of the text before it knows only whether
an operand is expected. Behind an operator and behind an opening parenthesis it is therefore where
it is at the start of a text, and goes on with the same tokens or fails as it would there.
-/
namespace Abacus

def Location.shifted (n : Nat) (l : Location) : Location :=
  { l with column := l.column + n, offset := l.offset + n }

def Glyph.shifted (n : Nat) (g : Glyph) : Glyph := { g with offset := g.offset + n }

def Token.shifted (n : Nat) (t : Token) : Token :=
  { t with location := t.location.map (Location.shifted n) }

/-- The second fault says the same as the first, `n` places farther on. -/
structure Fault.Shifted (n : Nat) (f g : Fault) : Prop where
  cause : g.cause = f.cause
  message : g.message = f.message
  help : g.help = f.help
  suggestions : g.suggestions = f.suggestions
  location : g.location = f.location.map (Location.shifted n)

theorem Location.shifted_ofOffset (n : Nat) (filename : String) (offset : Nat) :
    (ofOffset filename offset).shifted n = ofOffset filename (offset + n) := by
  simp [shifted, ofOffset]
  omega

namespace Glyph

theorem filterMap_ofIndexed_shifted (cs : List Char) (m n : Nat) :
    (cs.zipIdx (m + n)).filterMap ofIndexed =
      ((cs.zipIdx m).filterMap ofIndexed).map (shifted n) := by
  induction cs generalizing m with
  | nil => rfl
  | cons c cs ih =>
    have hrest := ih (m + 1)
    rw [Nat.add_right_comm] at hrest
    cases hc : Text.isBlank c <;> simp [ofIndexed, hc, hrest, shifted]

theorem ofText_append (a b : String) :
    ofText (a ++ b) = ofText a ++ (ofText b).map (shifted a.length) := by
  have hshift := filterMap_ofIndexed_shifted b.toList 0 a.length
  rw [ofText, String.toList_append, List.zipIdx_append, List.filterMap_append, String.length_toList,
    hshift]
  rfl

theorem ofText_append_char (a b : String) {c : Char} (h : Text.isBlank c = false) :
    ofText (a ++ c.toString ++ b) =
      ofText a ++ ⟨c, a.length⟩ :: (ofText b).map (shifted (a.length + 1)) := by
  have hchar : ofText c.toString = [⟨c, 0⟩] := by simp [ofText, ofIndexed, h]
  rw [ofText_append, ofText_append, hchar]
  simp [shifted]

end Glyph

theorem tokenize_eq_outcome (filename source : String) :
    tokenize filename source = (·.tokens.toList) <$> outcome (Scan.ofText filename source) := by
  unfold tokenize outcome
  cases Scan.ofText filename source <;> rfl

namespace Scan

variable {filename : String}

def after (base : Array Token) (s : Scan) : Scan := { s with tokens := base ++ s.tokens }

theorem after_emit (base : Array Token) (s : Scan) (g : Glyph) (k : Token.Kind) (e : Bool) :
    (s.after base).emit filename g k e = (s.emit filename g k e).after base := by
  simp [emit, after]

theorem outcome_flush_after (base : Array Token) (s : Scan) :
    outcome ((s.after base).flush filename) = after base <$> outcome (s.flush filename) := by
  unfold flush after
  by_cases hs : s.literal.isEmpty = true
  · simp only [hs, if_true]
    rfl
  · simp only [hs]
    cases Literal.read s.literal.toList with
    | error defect => rfl
    | ok v => simp [outcome, Except.mapError]

theorem outcome_step_after (base : Array Token) (s : Scan) (g : Glyph) :
    outcome ((s.after base).step filename g) = after base <$> outcome (s.step filename g) := by
  have hmark (k : Token.Kind) (e : Bool) :
      outcome ((s.after base).flush filename >>= fun t => .ok (t.emit filename g k e)) =
        after base <$> outcome (s.flush filename >>= fun t => .ok (t.emit filename g k e)) := by
    rw [outcome_bind, outcome_bind, outcome_flush_after]
    cases outcome (s.flush filename) with
    | error f => rfl
    | ok t => exact congrArg Except.ok (after_emit base t g k e)
  have hexpects : (s.after base).expectsOperand = s.expectsOperand := rfl
  unfold step
  rw [hexpects]
  cases g.role with
  | digit => rfl
  | foreign => rfl
  | leftParen => exact hmark .leftParen true
  | rightParen => exact hmark .rightParen false
  | operator op =>
    cases s.expectsOperand with
    | false => exact hmark (.operator op) true
    | true => cases op <;> rfl

theorem read_append (s : Scan) (gs hs : List Glyph) :
    read filename s (gs ++ hs) = gs.foldlM (step filename) s >>= (read filename · hs) := by
  simp only [read, List.foldlM_append, bind_assoc]

theorem read_cons (s : Scan) (g : Glyph) (gs : List Glyph) :
    read filename s (g :: gs) = s.step filename g >>= (read filename · gs) := by
  simp only [read, List.foldlM_cons, bind_assoc]

/-- What is read already is never looked at. -/
theorem outcome_read_after (base : Array Token) (s : Scan) (gs : List Glyph) :
    outcome ((s.after base).read filename gs) = after base <$> outcome (s.read filename gs) := by
  induction gs generalizing s with
  | nil => exact outcome_flush_after base s
  | cons g gs ih =>
    rw [read_cons, read_cons, outcome_bind, outcome_bind, outcome_step_after]
    cases outcome (s.step filename g) with
    | error f => rfl
    | ok t => exact ih t

end Scan

/-- The reason that is given for a literal is what is wrong with it. -/
def Fault.Explained : Fault → Prop
  | invalidNumber lexeme _ reason =>
    ∃ defect, Literal.read lexeme.toList = .error defect ∧ reason = defect.reason
  | invalidCharacter .. | misplacedOperator .. => True
  | _ => False

theorem Scan.explained_of_read {filename : String} {s : Scan} {gs : List Glyph} {e : Halt Scan}
    (h : s.read filename gs = .error e) : e.fault.Explained := by
  have flushed (hf : e.state.flush filename = .error e) : e.fault.Explained := by
    obtain ⟨defect, hread, he⟩ := flush_eq_error hf
    rw [he]
    exact ⟨defect, hread, rfl⟩
  rcases read_error_cases h with ⟨_, g, _, -, -, hstep⟩ | ⟨-, hflush⟩
  · rcases step_error_cases hstep with ⟨-, he⟩ | ⟨_, -, -, -, he⟩ | ⟨_, -, -, hflush⟩
    · rw [he]
      trivial
    · rw [he]
      trivial
    · exact flushed hflush
  · exact flushed hflush

theorem Fault.help_eq_of_explained {f g : Fault} (hf : f.Explained) (hg : g.Explained)
    (hcause : f.cause = g.cause) (hmessage : f.message = g.message) :
    f.help = g.help ∧ f.suggestions = g.suggestions := by
  have between {before after x y : String} (h : before ++ x ++ after = before ++ y ++ after) :
      x = y :=
    (String.append_right_inj before).mp ((String.append_left_inj after).mp h)
  cases f with
  | unmatchedClosing | unclosedOpening | missingOperand | leftoverOperands | emptyExpression
  | divisionByZero => cases hf
  | invalidCharacter text l =>
    cases g with
    | invalidCharacter text' l' =>
      obtain rfl := between hmessage
      exact ⟨rfl, rfl⟩
    | _ => cases hcause
  | misplacedOperator lexeme l =>
    cases g with
    | misplacedOperator lexeme' l' => exact ⟨rfl, rfl⟩
    | _ => cases hcause
  | invalidNumber lexeme l reason =>
    cases g with
    | invalidNumber lexeme' l' reason' =>
      obtain rfl := between hmessage
      obtain ⟨defect, hread, rfl⟩ := hf
      obtain ⟨defect', hread', rfl⟩ := hg
      rw [hread] at hread'
      cases hread'
      exact ⟨rfl, rfl⟩
    | _ => cases hcause

def Follows (n i j : Nat) : Prop := j = i + n

theorem Location.map_shifted_of_related {filename : String} {n : Nat} {l m : Option Location}
    (h : Option.Rel (Related filename (Follows n)) l m) : m = l.map (shifted n) := by
  cases h with
  | none => rfl
  | some h =>
    obtain ⟨i, j, rfl, rfl, rfl⟩ := h
    exact congrArg some (shifted_ofOffset n filename i).symm

theorem Token.Alike.eq_shifted {filename : String} {n : Nat} {t u : Token}
    (h : t.Alike (Location.Related filename (Follows n)) u) : u = t.shifted n := by
  obtain ⟨kind, lexeme, value, location⟩ := u
  obtain ⟨rfl, rfl, rfl, hlocation⟩ := h
  rw [shifted, ← Location.map_shifted_of_related hlocation]

theorem Token.eq_map_shifted {filename : String} {n : Nat} {ts us : List Token}
    (h : List.Forall₂ (Alike (Location.Related filename (Follows n))) ts us) :
    us = ts.map (shifted n) := by
  induction h with
  | nil => rfl
  | cons htu _ ih => rw [List.map_cons, ← htu.eq_shifted, ← ih]

theorem Glyph.alike_shifted (n : Nat) (gs : List Glyph) :
    List.Forall₂ (Alike (Follows n)) gs (gs.map (shifted n)) := by
  induction gs with
  | nil => exact .nil
  | cons g gs ih => exact .cons ⟨rfl, rfl⟩ ih

/-- A mark that a text can have behind it: an opening parenthesis always, and an operator where the
text ends in a digit or a closing parenthesis. -/
def MayEnd (a : String) (k : Token.Kind) : Prop :=
  k = .leftParen ∨
    (∃ op, k = .operator op) ∧ ∃ d ∈ (Text.ink a.toList).getLast?, d.isDigit = true ∨ d = ')'

section
variable {filename a : String} {ts : List Token} {k : Token.Kind}

theorem MayEnd.endsOperand (h : MayEnd a k) : k.endsOperand = false := by
  rcases h with rfl | ⟨⟨op, rfl⟩, -⟩ <;> rfl

theorem MayEnd.awaitsOperand (h : MayEnd a k) (hr : Reads filename (Glyph.ofText a) ts) :
    ∀ op, k = .operator op → awaitsOperand ts = false := by
  rintro op rfl
  rcases h with h | ⟨-, d, hd, hend⟩
  · cases h
  · rw [Text.ink, ← Glyph.map_char_ofText, List.getLast?_map] at hd
    obtain ⟨g, hg, rfl⟩ := Option.map_eq_some_iff.mp hd
    by_contra hawaits
    have hlead := hr.leadsOperand (Bool.not_eq_false _ |>.mp hawaits) g hg
    rcases hend with hdigit | hparen
    · exact not_leadsOperand_of_isDigit hdigit hlead
    · exact not_leadsOperand_rightParen (hparen ▸ hlead)

/-- Behind a text and its mark a scan is where it is at the start, apart from the tokens read. -/
theorem Scan.exists_read_mark (h : tokenize filename a = .ok ts) {g : Glyph}
    (hg : g.role.kind? = some k) (hk : MayEnd a k) : ∃ start, ∀ gs,
      read filename {} (Glyph.ofText a ++ g :: gs) =
        read filename (({ start } : Scan).after (ts.toArray.push (.ofGlyph filename k g))) gs := by
  have hmark := hk.awaitsOperand (tokenize_eq_ok_iff.mp h)
  obtain ⟨t, ht, rfl⟩ := read_eq_ok_iff.mpr (tokenize_eq_ok_iff.mp h)
  obtain ⟨s, hs, hf⟩ := bind_eq_ok_iff.mp ht
  obtain ⟨_, _, _, htracks, -⟩ := exists_tracks hs
  obtain ⟨-, hblank, hawaits⟩ := htracks.flush_reads hf
  have hstep : s.step filename g = _ := step_mark hg fun op hop => hawaits.symm.trans (hmark op hop)
  have hemit : t.emit filename g k (!k.endsOperand) =
      ({ start := t.start } : Scan).after (t.tokens.toList.toArray.push (.ofGlyph filename k g)) := by
    simp [emit, after, hblank, hk.endsOperand, Token.ofGlyph]
  refine ⟨t.start, fun gs => ?_⟩
  rw [read_append, hs]
  change read filename s (g :: gs) = _
  rw [read_cons, hstep, hf, ← hemit]
  rfl

/-- Behind a text that can be tokenized and its mark, a text is tokenized as it is alone: its tokens
follow, or its fault is found, with all places moved by what stands before. -/
theorem tokenize_append_mark (h : tokenize filename a = .ok ts) {c : Char} (hc : k.char? = some c)
    (hk : MayEnd a k) (b : String) :
    EndAlike (Fault.Shifted (a.length + 1))
      (fun us vs =>
        vs = ts ++ .ofGlyph filename k ⟨c, a.length⟩ :: us.map (.shifted (a.length + 1)))
      (tokenize filename b) (tokenize filename (a ++ c.toString ++ b)) := by
  have hrole : (Glyph.mk c a.length).role.kind? = some k := Glyph.kind?_eq_some_iff.mpr hc
  have htext := Glyph.ofText_append_char a b (Token.Kind.isBlank_of_char? hc)
  obtain ⟨start, hread⟩ := Scan.exists_read_mark h hrole hk
  have hplaces := Glyph.alike_shifted (a.length + 1) (Glyph.ofText b)
  have halike := (Scan.alike_start filename (Follows (a.length + 1)) start).read hplaces
  rw [tokenize_eq_outcome, tokenize_eq_outcome, Scan.ofText, Scan.ofText, htext, hread,
    Scan.outcome_read_after]
  generalize hx : Scan.read filename {} (Glyph.ofText b) = x at halike ⊢
  generalize hy : Scan.read filename { start } _ = y at halike ⊢
  cases halike with
  | ok hst =>
    refine .ok ?_
    simp [Scan.after, Token.eq_map_shifted hst.tokens]
  | error hfault =>
    have hhelp := Fault.help_eq_of_explained (Scan.explained_of_read hx) (Scan.explained_of_read hy)
      hfault.cause hfault.message
    exact .error ⟨hfault.cause.symm, hfault.message.symm, hhelp.1.symm, hhelp.2.symm,
      Location.map_shifted_of_related hfault.location⟩

/-- Alone the second text begins with a sign, and behind the mark it still does. -/
theorem tokenize_append_mark_minus :
    ∃ ts, tokenize "sheet" "(1) " = .ok ts ∧ MayEnd "(1) " (.operator .minus) ∧
      EndAlike (Fault.Shifted 5)
        (fun us vs => vs = ts ++ .ofGlyph "sheet" (.operator .minus) ⟨'-', 4⟩ ::
          us.map (.shifted 5))
        (tokenize "sheet" "-2*") (tokenize "sheet" "(1) --2*") := by
  have htokens : tokenize "sheet" "(1) " = .ok
      [⟨.leftParen, "(", none, some (.ofOffset "sheet" 0)⟩,
        ⟨.number, "1", some 1, some (.ofOffset "sheet" 1)⟩,
        ⟨.rightParen, ")", none, some (.ofOffset "sheet" 2)⟩] := by
    decide +kernel
  have hend : MayEnd "(1) " (.operator .minus) :=
    .inr ⟨⟨.minus, rfl⟩, ')', by decide +kernel, .inr rfl⟩
  exact ⟨_, htokens, hend, tokenize_append_mark htokens rfl hend "-2*"⟩

end

end Abacus
