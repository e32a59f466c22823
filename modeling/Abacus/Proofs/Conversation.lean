import Abacus.Console.Command
import Mathlib.Data.List.DropRight

/-! # A session line by line

Nothing is kept from one line of a session to the next, so the session on a text is made up of the
turns of its lines. The lines up to a line feed can be answered first and the text after them later.
-/
namespace Abacus

namespace Text

theorem cutLines_newline (cs : List Char) : cutLines ('\n' :: cs) = ['\n'] :: cutLines cs := by
  change consLine '\n' (cutLines cs) = _
  cases cutLines cs with
  | nil => rfl
  | cons line rest => simp [consLine]

theorem consLine_of_ne {c : Char} (hc : c ≠ '\n') (line : List Char) (rest : List (List Char)) :
    consLine c (line :: rest) = (c :: line) :: rest := if_neg hc

theorem consLine_append (c : Char) {ls : List (List Char)} (hls : ls ≠ []) (ms : List (List Char)) :
    consLine c (ls ++ ms) = consLine c ls ++ ms := by
  cases ls with
  | nil => exact absurd rfl hls
  | cons line rest => by_cases hc : c = '\n' <;> simp [consLine, hc]

theorem cutLines_line {body : List Char} (hbody : '\n' ∉ body) (cs : List Char) :
    cutLines (body ++ '\n' :: cs) = (body ++ ['\n']) :: cutLines cs := by
  induction body with
  | nil => exact cutLines_newline cs
  | cons c body ih =>
    have hc : c ≠ '\n' := fun h => hbody (h ▸ List.mem_cons_self)
    have hrest : '\n' ∉ body := fun h => hbody (List.mem_cons_of_mem c h)
    change consLine c (cutLines (body ++ '\n' :: cs)) = _
    rw [ih hrest, consLine_of_ne hc]
    rfl

theorem cutLines_last {body : List Char} (hbody : '\n' ∉ body) (hne : body ≠ []) :
    cutLines body = [body] := by
  induction body with
  | nil => exact absurd rfl hne
  | cons c body ih =>
    have hc : c ≠ '\n' := fun h => hbody (h ▸ List.mem_cons_self)
    have hrest : '\n' ∉ body := fun h => hbody (List.mem_cons_of_mem c h)
    change consLine c (cutLines body) = _
    by_cases hend : body = []
    · subst hend
      rfl
    · rw [ih hrest hend, consLine_of_ne hc]

theorem cutLines_ne_nil {cs : List Char} (hcs : cs ≠ []) : cutLines cs ≠ [] := by
  intro h
  have hflat := flatten_cutLines cs
  rw [h] at hflat
  exact hcs hflat.symm

theorem cutLines_append {cs : List Char} (hcs : cs = [] ∨ cs.getLast? = some '\n')
    (ds : List Char) : cutLines (cs ++ ds) = cutLines cs ++ cutLines ds := by
  induction cs with
  | nil => rfl
  | cons c cs ih =>
    by_cases hend : cs = []
    · subst hend
      obtain rfl : c = '\n' := by simpa using hcs
      exact cutLines_newline ds
    · have hlast : cs.getLast? = some '\n' := by
        rw [← List.getLast?_cons_of_ne_nil hend]
        exact hcs.resolve_left (List.cons_ne_nil c cs)
      change consLine c (cutLines (cs ++ ds)) = consLine c (cutLines cs) ++ cutLines ds
      rw [ih (.inr hlast), consLine_append c (cutLines_ne_nil hend)]

theorem lines_append {x : String} (hx : x = "" ∨ x.toList.getLast? = some '\n') (y : String) :
    lines (x ++ y) = lines x ++ lines y := by
  have hcs : x.toList = [] ∨ x.toList.getLast? = some '\n' :=
    hx.imp_left String.toList_eq_nil_iff.mpr
  rw [lines, String.toList_append, cutLines_append hcs, List.map_append, lines, lines]

theorem lines_line {body : String} (hbody : '\n' ∉ body.toList) (rest : String) :
    lines (body ++ "\n" ++ rest) = (body ++ "\n") :: lines rest := by
  have hcut : (body ++ "\n" ++ rest).toList = body.toList ++ '\n' :: rest.toList := by simp
  have hline : String.ofList (body.toList ++ ['\n']) = body ++ "\n" := by
    apply String.toList_inj.mp
    simp
  rw [lines, hcut, cutLines_line hbody, List.map_cons, hline, lines]

theorem lines_last {body : String} (hbody : '\n' ∉ body.toList) (hne : body ≠ "") :
    lines body = [body] := by
  have hcs : body.toList ≠ [] := mt String.toList_eq_nil_iff.mp hne
  rw [lines, cutLines_last hbody hcs, List.map_singleton, String.ofList_toList]

theorem join_lines (s : String) : String.join (lines s) = s := by
  have hjoin (ls : List (List Char)) :
      String.join (ls.map String.ofList) = String.ofList ls.flatten := by
    induction ls with
    | nil => rfl
    | cons l ls ih =>
      rw [List.map_cons, String.join_cons, ih, List.flatten_cons, String.ofList_append]
  rw [lines, hjoin, flatten_cutLines, String.ofList_toList]

theorem trim_append_blanks {t : String} (ht : isBlankText t = true) (s : String) :
    trim (s ++ t) = trim s := by
  have hblank : ∀ c ∈ t.toList, isBlank c = true := List.all_eq_true.mp ht
  have hdrop : t.toList.dropWhile isBlank = [] := List.dropWhile_eq_nil_iff.mpr hblank
  have hdrop' : t.toList.reverse.dropWhile isBlank = [] :=
    List.dropWhile_eq_nil_iff.mpr fun c hc => hblank c (List.mem_reverse.mp hc)
  rw [trim, trim, String.toList_append, List.dropWhile_append]
  cases hs : s.toList.dropWhile isBlank with
  | nil => simp [hdrop]
  | cons c cs => simp [List.dropWhile_append, hdrop']

theorem exists_chomp_append (line : String) :
    ∃ t, isBlankText t = true ∧ chomp line ++ t = line := by
  let ends : Char → Bool := fun c => c = '\n' ∨ c = '\r'
  refine ⟨String.ofList (line.toList.rtakeWhile ends), ?_, ?_⟩
  · rw [isBlankText, String.toList_ofList, List.all_eq_true]
    intro c hc
    have hend : ends c = true := List.mem_rtakeWhile_imp hc
    rcases of_decide_eq_true hend with rfl | rfl <;> decide
  · change String.ofList (line.toList.rdropWhile ends) ++ _ = line
    rw [← String.ofList_append, List.rdropWhile_append_rtakeWhile, String.ofList_toList]

theorem trim_chomp (line : String) : trim (chomp line) = trim line := by
  obtain ⟨t, ht, hline⟩ := exists_chomp_append line
  rw [← trim_append_blanks ht, hline]

end Text

namespace Console

def Transcript.after (t : Transcript) (before : List Emission) : Transcript :=
  { t with emissions := before ++ t.emissions }

namespace Session

variable (s : Session)

/-- The prompt, and the answer to a line that is given without the characters that end it. -/
def turn (line : String) : List Emission :=
  let reply := s.reply (Text.chomp line)
  s.prompt :: (reply.emissions ++ [.line reply.text])

theorem isExit_iff (line : String) :
    s.isExit line = true ↔ Text.trim line = s.settings.exitCommand := by
  rw [isExit, decide_eq_true_iff, Text.trim_chomp]

theorem run_eq_converse_after (inputEnd : InputEnd) (input : String) :
    s.run inputEnd input = (s.converse inputEnd (Text.lines input)).after s.greeting := rfl

variable {s}

theorem converse_exit {line : String} (h : Text.trim line = s.settings.exitCommand)
    (inputEnd : InputEnd) (rest : List String) :
    s.converse inputEnd (line :: rest) = ⟨[s.prompt], 0, String.join rest⟩ := by
  rw [converse, if_pos ((s.isExit_iff line).mpr h)]

theorem converse_stay {line : String} (h : Text.trim line ≠ s.settings.exitCommand)
    (inputEnd : InputEnd) (rest : List String) :
    s.converse inputEnd (line :: rest) = (s.converse inputEnd rest).after (s.turn line) := by
  rw [converse, if_neg (mt (s.isExit_iff line).mp h)]
  rfl

/-- Lines that do not end the session are answered in their turns, and leave no trace after. -/
theorem converse_append {ls : List String}
    (hstay : ∀ line ∈ ls, Text.trim line ≠ s.settings.exitCommand) (inputEnd : InputEnd)
    (rest : List String) :
    s.converse inputEnd (ls ++ rest) = (s.converse inputEnd rest).after (ls.flatMap s.turn) := by
  induction ls with
  | nil => rfl
  | cons line ls ih =>
    rw [List.forall_mem_cons] at hstay
    rw [List.cons_append, converse_stay hstay.1, ih hstay.2]
    simp [Transcript.after]

theorem run_append_eq {x : String} (hx : x = "" ∨ x.toList.getLast? = some '\n')
    (hstay : ∀ line ∈ Text.lines x, Text.trim line ≠ s.settings.exitCommand)
    (inputEnd : InputEnd) (y : String) :
    s.run inputEnd (x ++ y) = (s.converse inputEnd (Text.lines y)).after
      (s.greeting ++ (Text.lines x).flatMap s.turn) := by
  rw [run_eq_converse_after, Text.lines_append hx, converse_append hstay]
  simp [Transcript.after]

section
variable {body : String} (hbody : '\n' ∉ body.toList)
include hbody

theorem converse_lines_exit (hexit : Text.trim body = s.settings.exitCommand)
    (inputEnd : InputEnd) (rest : String) :
    s.converse inputEnd (Text.lines (body ++ "\n" ++ rest)) = ⟨[s.prompt], 0, rest⟩ := by
  have hline : Text.trim (body ++ "\n") = s.settings.exitCommand := by
    rw [Text.trim_append_blanks (by decide), hexit]
  rw [Text.lines_line hbody, converse_exit hline, Text.join_lines]

variable (hne : body ≠ "")
include hne

theorem converse_lines_exit_last (hexit : Text.trim body = s.settings.exitCommand)
    (inputEnd : InputEnd) :
    s.converse inputEnd (Text.lines body) = ⟨[s.prompt], 0, ""⟩ := by
  rw [Text.lines_last hbody hne, converse_exit hexit]
  rfl

end

end Session

end Console

end Abacus
