import Abacus.Console.Command
import Abacus.Proofs.Answers
import Abacus.Proofs.Filenames
import Abacus.Proofs.Overlaying
import Mathlib.Data.List.TakeWhile

/-! # Command lines with an expression

A value may be any text where it is attached to the long name of its switch. So an expression that
is given in this way is worked out whatever it looks like. Of the switches around it only the one
that shows the tokens makes a difference; a prompt, a word for leaving and the input are for a
session.
-/
namespace Abacus.Console

namespace Switch

theorem exists_longName (s : Switch) :
    ∃ name, s.longName.toList = '-' :: '-' :: name ∧ '=' ∉ s.longName.toList := by
  cases s <;> exact ⟨_, rfl, by decide⟩

theorem ofLongName?_longName (s : Switch) : ofLongName? s.longName = some s := by
  cases s <;> decide +kernel

end Switch

namespace Word

variable {stem : List Char} {word : String} {w : Word}

theorem cut_append (h : '=' ∉ stem) (text : List Char) :
    cut (stem ++ '=' :: text) = (stem, some text) := by
  have hstem : ∀ c ∈ stem, decide (c ≠ '=') = true :=
    fun c hc => decide_eq_true fun heq => h (heq ▸ hc)
  rw [cut, List.dropWhile_append_of_pos hstem, List.takeWhile_append_of_pos hstem]
  simp

theorem cut_of_not_mem (h : '=' ∉ stem) : cut stem = (stem, none) := by
  have hdrop : stem.dropWhile (· ≠ '=') = [] :=
    List.dropWhile_eq_nil_iff.mpr fun c hc => decide_eq_true fun heq => h (heq ▸ hc)
  rw [cut, hdrop]

theorem read_attached (s : Switch) (text : String) :
    read (s.longName ++ "=" ++ text) = .ok (.switch s false (some text.toList)) := by
  obtain ⟨name, hname, hequals⟩ := s.exists_longName
  have hchars : (s.longName ++ "=" ++ text).toList = s.longName.toList ++ '=' :: text.toList := by
    simp
  have hlong : read (s.longName ++ "=" ++ text) = ofLong (s.longName ++ "=" ++ text) := by
    rw [read, hchars, hname]
    rfl
  rw [hlong, ofLong, hchars, cut_append hequals]
  dsimp only
  rw [String.ofList_toList, s.ofLongName?_longName]

theorem read_separator : read "--" = .error (.ambiguous "--" Switch.all) := by
  decide +kernel

theorem readAll_cons (h : read word = .ok w) (rest : List String) :
    readAll (word :: rest) = (w :: ·) <$> readAll rest := by
  have hword : word ≠ "--" := by
    rintro rfl
    rw [read_separator] at h
    cases h
  rw [readAll, if_neg hword, h]
  rfl

end Word

/-- A switch that may stand beside an expression, with the value that is attached to it. -/
inductive Choice where
  | showTokens
  | prompt (text : String)
  | exitCommand (word : String)
  deriving DecidableEq

namespace Choice

def written : Choice → String
  | showTokens => "--show-tokens"
  | prompt text => "--prompt=" ++ text
  | exitCommand word => "--exit-command=" ++ word

def word : Choice → Word
  | showTokens => .switch .showTokens false none
  | prompt text => .switch .prompt false (some text.toList)
  | exitCommand word => .switch .exitCommand false (some word.toList)

def apply (r : Request) : Choice → Request
  | showTokens => { r with overrides.showTokens := true }
  | prompt text => r.assign .prompt text
  | exitCommand word => r.assign .exitCommand word

theorem read_written (c : Choice) : Word.read c.written = .ok c.word := by
  cases c with
  | showTokens => decide +kernel
  | prompt text => exact Word.read_attached .prompt text
  | exitCommand word => exact Word.read_attached .exitCommand word

theorem readAll_append (cs : List Choice) (rest : List String) :
    Word.readAll (cs.map written ++ rest) = (cs.map word ++ ·) <$> Word.readAll rest := by
  induction cs with
  | nil => exact (id_map _).symm
  | cons c cs ih =>
    rw [List.map_cons, List.cons_append, Word.readAll_cons c.read_written, ih]
    cases Word.readAll rest <;> rfl

theorem foldl_apply (cs : List Choice) (r : Request) :
    (cs.foldl apply r).expression = r.expression ∧
      (cs.foldl apply r).overrides.verbose = r.overrides.verbose ∧
      (cs.foldl apply r).overrides.showTokens =
        (r.overrides.showTokens || decide (showTokens ∈ cs)) := by
  induction cs generalizing r with
  | nil => simp
  | cons c cs ih =>
    obtain ⟨hexpression, hverbose, hshow⟩ := ih (apply r c)
    rw [List.foldl_cons, hexpression, hverbose, hshow]
    cases c <;> simp [apply, Request.assign]

end Choice

namespace Request

theorem carryOut_attached {s : Switch} (hs : s.takesValue = true) (r : Request)
    (strays : List String) (text : List Char) (rest : List Word) :
    carryOut r strays (.switch s false (some text) :: rest) =
      carryOut (r.assign s (String.ofList text)) strays rest := by
  have hbundle : Bundle.ofSwitch s false (some text) = .ok ⟨[], .value s (String.ofList text)⟩ := by
    rw [Bundle.ofSwitch, Bundle.ofAttached, if_pos hs]
  rw [carryOut, hbundle]
  rfl

theorem carryOut_choices (cs : List Choice) (r : Request) (strays : List String)
    (rest : List Word) :
    carryOut r strays (cs.map Choice.word ++ rest) =
      carryOut (cs.foldl Choice.apply r) strays rest := by
  induction cs generalizing r with
  | nil => rfl
  | cons c cs ih =>
    rw [List.foldl_cons, ← ih, List.map_cons, List.cons_append]
    cases c with
    | showTokens => rfl
    | prompt text =>
      rw [Choice.word, carryOut_attached rfl, String.ofList_toList]
      rfl
    | exitCommand word =>
      rw [Choice.word, carryOut_attached rfl, String.ofList_toList]
      rfl

theorem ofArguments_expression (before after : List Choice) (e : String) :
    ofArguments (before.map Choice.written ++ ("--expression=" ++ e) :: after.map Choice.written) =
      .ok (after.foldl Choice.apply
        { before.foldl Choice.apply {} with expression := some e }) := by
  have hexpression : Word.read ("--expression=" ++ e) =
      .ok (.switch .expression false (some e.toList)) := Word.read_attached .expression e
  have hafter : Word.readAll (after.map Choice.written) = .ok (after.map Choice.word ++ []) := by
    rw [← List.append_nil (after.map _), Choice.readAll_append]
    rfl
  have hwords : Word.readAll (before.map Choice.written ++
      ("--expression=" ++ e) :: after.map Choice.written) =
      .ok (before.map Choice.word ++
        .switch .expression false (some e.toList) :: (after.map Choice.word ++ [])) := by
    rw [Choice.readAll_append, Word.readAll_cons hexpression, hafter]
    rfl
  rw [ofArguments, hwords]
  dsimp only
  rw [carryOut_choices, carryOut_attached rfl, carryOut_choices, String.ofList_toList]
  rfl

end Request

theorem Emission.stdout_visible (verbose : Bool) (es : List Emission) :
    stdout (visible verbose es) = stdout es := by
  cases verbose with
  | true => rfl
  | false =>
    change stdout (es.filter (!·.isLog)) = _
    induction es with
    | nil => rfl
    | cons e es ih =>
      rw [List.filter_cons, stdout_cons]
      cases e with
      | out text | err text => exact (stdout_cons _ _).trans (congrArg _ ih)
      | log event => exact ih.trans String.empty_append.symm

/-- What is seen of a run as it is, with the log where it is kept. -/
def Report.shown (stamp : String) (r : Report) : Seen :=
  ⟨r.status, Emission.stdout r.emissions, Emission.stderr stamp r.emissions⟩

/-- Of settings, a one-shot run reads its messages and whether to show tokens and diagnostics. -/
theorem oneShot_overlay (s : Settings) (o : Overrides) (e : String) :
    oneShot (s.overlay o) e = oneShot { s with
      showTokens := s.showTokens || o.showTokens
      verbose := s.verbose || o.verbose } e := by
  rw [Settings.overlay_eq]
  rfl

theorem shown_serve {r : Request} {e : String} (he : r.expression = some e)
    (hverbose : r.overrides.verbose = false) (inputEnd : InputEnd) (input stamp : String) :
    (r.serve inputEnd input).shown stamp =
      (oneShot { showTokens := r.overrides.showTokens } e).seen stamp := by
  have honce : oneShot r.settings e = oneShot { showTokens := r.overrides.showTokens } e := by
    rw [Request.settings, oneShot_overlay, hverbose]
    rfl
  have hquiet : r.settings.verbose = false := by
    rw [Request.settings, Settings.overlay_eq]
    exact hverbose
  rw [Request.serve, he, hquiet]
  dsimp only
  rw [honce, Report.shown, Emission.stdout_visible]
  rfl

theorem status_oneShot (s : Settings) (e : String) (c : Calculator) :
    (oneShot s e).status = match (c.calculate (some e)).answer with
      | .ok _ => 0
      | .error _ => 1 := by
  have hstatus : (oneShot s e).status = ((oneShot s e).seen "").status := rfl
  rw [hstatus, seen_oneShot]
  cases hc : (c.calculate (some e)).answer with
  | ok v => rw [Calculator.answer_under hc oneShotCalculator]
  | error f =>
    cases honce : (oneShotCalculator.calculate (some e)).answer with
    | ok v =>
      rw [Calculator.answer_under honce c] at hc
      cases hc
    | error g => rfl

theorem status_serve {r : Request} {e : String} (he : r.expression = some e) (inputEnd : InputEnd)
    (input : String) (c : Calculator) :
    (r.serve inputEnd input).status = match (c.calculate (some e)).answer with
      | .ok _ => 0
      | .error _ => 1 := by
  rw [Request.serve, he]
  exact status_oneShot r.settings e c

theorem command_of_request {arguments : List String} {r : Request}
    (h : Request.ofArguments arguments = .ok r) (inputEnd : InputEnd) (input : String) :
    command arguments inputEnd input = r.serve inputEnd input := by
  rw [command, h]

/-- An expression that is attached to its switch is worked out in one-shot mode, whatever it is and
whatever choices stand around it, and only the choice to show the tokens counts. Neither the other
choices nor the input are seen in what is put out, and the status tells whether there is a value. -/
theorem command_expression (before after : List Choice) (e : String) (inputEnd : InputEnd)
    (input stamp : String) :
    let settings : Settings := { showTokens := decide (.showTokens ∈ before ++ after) }
    let arguments :=
      before.map Choice.written ++ ("--expression=" ++ e) :: after.map Choice.written
    let report := command arguments inputEnd input
    report.shown stamp = (oneShot settings e).seen stamp ∧
      ∀ c : Calculator, report.status = match (c.calculate (some e)).answer with
        | .ok _ => 0
        | .error _ => 1 := by
  intro settings arguments report
  let start : Request := { before.foldl Choice.apply {} with expression := some e }
  let request := after.foldl Choice.apply start
  have hreport : report = request.serve inputEnd input :=
    command_of_request (Request.ofArguments_expression before after e) inputEnd input
  obtain ⟨-, hverbose, hshow⟩ := Choice.foldl_apply before {}
  obtain ⟨hexpression, hverbose', hshow'⟩ := Choice.foldl_apply after start
  have hsettings : ({ showTokens := request.overrides.showTokens } : Settings) = settings := by
    rw [hshow', hshow]
    simp [settings, List.mem_append, Bool.decide_or]
  rw [hreport]
  refine ⟨?_, status_serve hexpression inputEnd input⟩
  rw [shown_serve hexpression (hverbose'.trans hverbose), hsettings]

end Abacus.Console
