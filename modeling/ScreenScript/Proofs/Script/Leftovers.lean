import Mathlib.Data.List.Count
import Mathlib.Data.List.Nodup
import ScreenScript.Proofs.Script.Assignments
import ScreenScript.Proofs.Script.Commands

namespace ScreenScript

namespace Command

def names : Command → List String
  | click | hover => ["timeout", "interval", "best_effort"]
  | branch => ["timeout", "interval"]
  | _ => []

/-- How many positional arguments a command takes at most, if it does not take free text. -/
def places : Command → Nat
  | click | hover | wait | type | press | loop => 1
  | clickAt | scroll | branch => 2
  | _ => 0

theorem nodup_names (command : Command) : command.names.Nodup := by
  cases command <;> decide

end Command

namespace Arguments

def keys (args : Arguments) : List String :=
  args.named.map Prod.fst

structure Uses (taken : List String) (count : Nat) (args rest : Arguments) : Prop where
  keys : rest.keys = args.keys.diff taken
  places : rest.positional.length = args.positional.length - count

variable {taken taken' : List String} {count count' : Nat} {args left rest : Arguments}

theorem Uses.refl (args : Arguments) : Uses [] 0 args args :=
  ⟨(List.diff_nil _).symm, rfl⟩

theorem Uses.trans (first : Uses taken count args left) (then' : Uses taken' count' left rest) :
    Uses (taken ++ taken') (count + count') args rest where
  keys := by rw [then'.keys, first.keys, List.diff_append]
  places := by rw [then'.places, first.places, Nat.sub_sub]

/-! ## Takers -/

theorem eq_of_orFault {ε α : Type} {wrap : ε → Arguments.Fault} {e : Except ε α} {x : α}
    (h : (orFault wrap e).run args = .ok (x, rest)) : rest = args := by
  cases e with
  | ok y =>
      cases h
      rfl
  | error fault => cases h

theorem eq_of_map_orFault {ε α β : Type} {wrap : ε → Arguments.Fault} {e : Except ε α} {f : α → β} {x : β}
    (h : (f <$> orFault wrap e).run args = .ok (x, rest)) : rest = args := by
  rw [map_eq_pure_bind] at h
  obtain ⟨_, _, parsed, h⟩ := run_bind_eq_ok_iff.1 h
  cases h
  exact eq_of_orFault parsed

theorem uses_next? {first : Option Argument} (h : next?.run args = .ok (first, rest)) :
    Uses [] 1 args rest := by
  obtain ⟨command, positional, named⟩ := args
  cases positional with
  | nil | cons =>
      cases h
      exact ⟨(List.diff_nil _).symm, rfl⟩

variable {what : String}

theorem uses_next {first : Argument} (h : (next what).run args = .ok (first, rest)) :
    Uses [] 1 args rest := by
  obtain ⟨first?, left, taken, h⟩ := run_bind_eq_ok_iff.1 h
  cases first? with
  | some found =>
      cases h
      exact uses_next? taken
  | none => cases h

theorem uses_word {text : String} (h : (word what).run args = .ok (text, rest)) :
    Uses [] 1 args rest := by
  obtain ⟨⟨found, quoted⟩, left, taken, h⟩ := run_bind_eq_ok_iff.1 h
  cases quoted with
  | true => cases h
  | false =>
      cases h
      exact uses_next taken

theorem uses_phrase {p : Phrase} (h : (phrase what).run args = .ok (p, rest)) :
    Uses [] 1 args rest := by
  obtain ⟨found, left, taken, h⟩ := run_bind_eq_ok_iff.1 h
  cases eq_of_orFault h
  exact uses_next taken

theorem uses_expr? {e : Option Expr} (h : expr?.run args = .ok (e, rest)) : Uses [] 1 args rest := by
  obtain ⟨first?, left, taken, h⟩ := run_bind_eq_ok_iff.1 h
  have used := uses_next? taken
  match first? with
  | none =>
      cases h
      exact used
  | some ⟨text, false⟩ =>
      cases eq_of_map_orFault h
      exact used
  | some ⟨text, true⟩ =>
      obtain ⟨_, _, parsed, h⟩ := run_bind_eq_ok_iff.1 h
      cases eq_of_orFault parsed
      cases h
      exact used

theorem uses_expr {e : Expr} (h : (expr what).run args = .ok (e, rest)) : Uses [] 1 args rest := by
  obtain ⟨found?, left, taken, h⟩ := run_bind_eq_ok_iff.1 h
  cases found? with
  | some found =>
      cases h
      exact uses_expr? taken
  | none => cases h

section Named

variable {key : String} {named named' : List (String × String)}

theorem perm_of_removeNamed? {value : String} (h : removeNamed? key named = some (value, named')) :
    named.Perm ((key, value) :: named') ∧
      named'.map Prod.fst = (named.map Prod.fst).erase key := by
  induction named generalizing value named' with
  | nil => cases h
  | cons first later ih =>
      obtain ⟨name, text⟩ := first
      rw [removeNamed?] at h
      split at h
      · rename_i same
        cases h
        subst same
        exact ⟨List.Perm.refl _, (List.erase_cons_head ..).symm⟩
      · rename_i ne
        obtain ⟨⟨found, left⟩, removed, eq⟩ := Option.map_eq_some_iff.1 h
        cases eq
        obtain ⟨perm, keys⟩ := ih removed
        refine ⟨(perm.cons _).trans (List.Perm.swap ..), ?_⟩
        rw [List.map_cons, keys, List.map_cons, List.erase_cons_tail (by simpa using ne)]

theorem notMem_of_removeNamed? (h : removeNamed? key named = none) : key ∉ named.map Prod.fst := by
  induction named with
  | nil => exact List.not_mem_nil
  | cons first later ih =>
      obtain ⟨name, text⟩ := first
      rw [removeNamed?] at h
      split at h
      · cases h
      · rename_i ne
        rw [Option.map_eq_none_iff] at h
        exact List.not_mem_cons_of_ne_of_not_mem (Ne.symm ne) (ih h)

theorem uses_takeNamed {raw? : Option String} (h : (takeNamed key).run args = .ok (raw?, rest)) :
    Uses [key] 0 args rest := by
  rw [StateT.run, takeNamed] at h
  split at h
  · rename_i value named' removed
    cases h
    refine ⟨?_, rfl⟩
    rw [List.diff_cons, List.diff_nil]
    exact (perm_of_removeNamed? removed).2
  · rename_i none
    cases h
    refine ⟨?_, rfl⟩
    rw [List.diff_cons, List.diff_nil, keys, List.erase_of_not_mem (notMem_of_removeNamed? none)]

theorem uses_duration {time? : Option Nat} (h : (duration key).run args = .ok (time?, rest)) :
    Uses [key] 0 args rest := by
  obtain ⟨raw?, left, taken, h⟩ := run_bind_eq_ok_iff.1 h
  cases raw? with
  | none =>
      cases h
      exact uses_takeNamed taken
  | some raw =>
      cases eq_of_map_orFault h
      exact uses_takeNamed taken

theorem uses_flag {b : Bool} (h : (flag key).run args = .ok (b, rest)) : Uses [key] 0 args rest := by
  obtain ⟨raw?, left, taken, h⟩ := run_bind_eq_ok_iff.1 h
  cases raw? with
  | none =>
      cases h
      exact uses_takeNamed taken
  | some raw =>
      dsimp only at h
      cases truth : boolean? raw with
      | none =>
          rw [truth] at h
          cases h
      | some b =>
          rw [truth] at h
          cases h
          exact uses_takeNamed taken

theorem uses_target {base : Policy} {template : Phrase} {t : Target}
    (h : (target base template).run args = .ok (t, rest)) :
    Uses ["timeout", "interval"] 0 args rest := by
  obtain ⟨timeout, _, taken, h⟩ := run_bind_eq_ok_iff.1 h
  obtain ⟨interval, _, taken', h⟩ := run_bind_eq_ok_iff.1 h
  obtain ⟨policy, _, adjusted, h⟩ := run_bind_eq_ok_iff.1 h
  cases eq_of_orFault adjusted
  cases h
  exact (uses_duration taken).trans (uses_duration taken')

end Named

theorem run_finish_eq_ok_iff {result : Unit × Arguments} :
    finish.run args = .ok result ↔ args.named = [] ∧ args.positional = [] ∧ result = ((), args) := by
  obtain ⟨command, positional, named⟩ := args
  match named, positional with
  | first :: later, _ =>
      have refused (positional : List Argument) :
          finish.run ⟨command, positional, first :: later⟩ = .error (.unknownName first.1 command) := rfl
      simp [refused]
  | [], first :: later =>
      have refused : finish.run ⟨command, first :: later, []⟩ = .error (.surplus first.shown command) := rfl
      simp [refused]
  | [], [] =>
      have clear : finish.run ⟨command, [], []⟩ = .ok ((), ⟨command, [], []⟩) := rfl
      simp [clear, eq_comm]

end Arguments

namespace Line

open Arguments (Uses uses_word uses_phrase uses_expr uses_expr? uses_flag uses_target run_bind_eq_ok_iff)

variable {base : Policy} {command : Command} {args rest : Arguments} {l : Line}

theorem takeAll_eq_ok_iff {taking : Arguments.Taking (Except Line.Fault Line)} :
    takeAll taking args = .ok l ↔
      ∃ rest, taking.run args = .ok (.ok l, rest) ∧ rest.named = [] ∧ rest.positional = [] := by
  rw [takeAll_eq]
  cases ran : taking.run args with
  | error fault => simp
  | ok taken =>
      obtain ⟨result, rest⟩ := taken
      cases result with
      | error fault => simp
      | ok l' =>
          dsimp only
          cases finished : Arguments.finish.run rest with
          | error fault =>
              refine ⟨nofun, ?_⟩
              rintro ⟨_, same, named, positional⟩
              cases same
              have clear := Arguments.run_finish_eq_ok_iff.2 ⟨named, positional, rfl⟩
              rw [finished] at clear
              cases clear
          | ok done =>
              obtain ⟨named, positional, -⟩ := Arguments.run_finish_eq_ok_iff.1 finished
              constructor
              · intro same
                cases same
                exact ⟨rest, rfl, named, positional⟩
              · rintro ⟨_, same, -⟩
                cases same
                rfl

theorem uses_ofCommand (plain : command.takesText = false)
    (h : (ofCommand base command).run args = .ok (.ok l, rest)) :
    Uses command.names command.places args rest := by
  cases command with
  | click | hover =>
      obtain ⟨p, _, taken, h⟩ := run_bind_eq_ok_iff.1 h
      obtain ⟨t, _, aimed, h⟩ := run_bind_eq_ok_iff.1 h
      obtain ⟨b, _, flagged, h⟩ := run_bind_eq_ok_iff.1 h
      cases h
      exact ((uses_phrase taken).trans (uses_target aimed)).trans (uses_flag flagged)
  | clickAt =>
      obtain ⟨x, _, taken, h⟩ := run_bind_eq_ok_iff.1 h
      obtain ⟨y, _, taken', h⟩ := run_bind_eq_ok_iff.1 h
      cases h
      exact (uses_expr taken).trans (uses_expr taken')
  | scroll =>
      obtain ⟨word, _, taken, h⟩ := run_bind_eq_ok_iff.1 h
      cases parsed : Direction.parse? word with
      | none =>
          rw [parsed] at h
          cases h
      | some direction =>
          rw [parsed] at h
          obtain ⟨amount, _, taken', h⟩ := run_bind_eq_ok_iff.1 h
          cases h
          exact (uses_word taken).trans (uses_expr? taken')
  | wait =>
      obtain ⟨raw, _, taken, h⟩ := run_bind_eq_ok_iff.1 h
      obtain ⟨n, _, parsed, h⟩ := run_bind_eq_ok_iff.1 h
      cases Arguments.eq_of_orFault parsed
      cases h
      exact uses_word taken
  | type | press =>
      obtain ⟨p, _, taken, h⟩ := run_bind_eq_ok_iff.1 h
      cases h
      exact uses_phrase taken
  | log | launch | abort => cases plain
  | loop =>
      obtain ⟨count, _, taken, h⟩ := run_bind_eq_ok_iff.1 h
      cases h
      exact uses_expr taken
  | branch =>
      obtain ⟨word, _, taken, h⟩ := run_bind_eq_ok_iff.1 h
      split at h
      · cases h
      · obtain ⟨p, _, taken', h⟩ := run_bind_eq_ok_iff.1 h
        obtain ⟨t, _, aimed, h⟩ := run_bind_eq_ok_iff.1 h
        cases h
        exact ((uses_word taken).trans (uses_phrase taken')).trans (uses_target aimed)
  | guard =>
      cases h
      exact .refl args

theorem ofWords_eq_ok_iff {words : List Word} :
    ofWords base command.word words = .ok l ↔
      (splitOpening words).2 = command.takesBlock ∧
        (∀ w ∈ (splitOpening words).1, w ≠ .opening ∧ w ≠ .closing) ∧
        takeAll (ofCommand base command) (Arguments.ofWords command.word command.takesText words) =
          .ok l := by
  have unbraced : ¬ ((splitOpening words).1.any fun w => w = .opening || w = .closing) ↔
      ∀ w ∈ (splitOpening words).1, w ≠ .opening ∧ w ≠ .closing := by
    simp
  have stops (fault : Line.Fault) (next : Unit → Except Line.Fault Line) :
      (throw fault >>= next) ≠ .ok l := nofun
  rw [← ofWords_splitOpening, ← unbraced]
  unfold ofWords
  rw [command.ofWord?_word]
  dsimp only
  rw [Option.any_some]
  cases (splitOpening words).2 <;> cases command.takesBlock <;>
    cases (splitOpening words).1.any fun w => w = .opening || w = .closing <;> simp [stops]

end Line

def Word.keys (words : List Word) : List String :=
  (words.filterMap Arguments.named?).map Prod.fst

structure Command.Fits (command : Command) (words : List Word) : Prop where
  once : (Word.keys words).Nodup
  known : ∀ key ∈ Word.keys words, key ∈ command.names
  places : (words.filterMap (Arguments.positional? false)).length ≤ command.places

theorem Command.Fits.of_perm {command : Command} {words words' : List Word} (h : command.Fits words)
    (perm : words.Perm words') : command.Fits words' where
  once := ((perm.filterMap Arguments.named?).map Prod.fst).nodup_iff.1 h.once
  known key member := h.known key (((perm.filterMap Arguments.named?).map Prod.fst).mem_iff.2 member)
  places := (perm.filterMap (Arguments.positional? false)).length_eq ▸ h.places

theorem Arguments.Uses.fits {command : Command} {words : List Word} {rest : Arguments}
    (h : Uses command.names command.places (ofWords command.word false words) rest)
    (named : rest.named = []) (positional : rest.positional = []) : command.Fits words := by
  -- Nothing is left over, so no name is given more often than the command knows it.
  have keys : (Word.keys words).diff command.names = [] := by
    have left := h.keys
    rw [Arguments.keys, named] at left
    exact left.symm
  have count (key : String) : (Word.keys words).count key ≤ command.names.count key := by
    have none : ((Word.keys words).diff command.names).count key = 0 := by
      rw [keys, List.count_nil]
    rw [List.count_diff] at none
    omega
  have places : 0 = (words.filterMap (positional? false)).length - command.places := by
    have left := h.places
    rwa [positional] at left
  refine ⟨List.nodup_iff_count_le_one.2 fun key => ?_, fun key member => ?_, by omega⟩
  · exact Nat.le_trans (count key) (List.nodup_iff_count_le_one.1 command.nodup_names key)
  · have here := List.count_pos_iff.2 member
    exact List.count_pos_iff.1 (Nat.lt_of_lt_of_le here (count key))

theorem Line.fits_of_ofWords {base : Policy} {command : Command} {words : List Word} {l : Line}
    (plain : command.takesText = false) (h : Line.ofWords base command.word words = .ok l) :
    command.Fits words := by
  obtain ⟨-, -, taken⟩ := ofWords_eq_ok_iff.1 h
  obtain ⟨rest, ran, named, positional⟩ := takeAll_eq_ok_iff.1 taken
  rw [plain] at ran
  exact (uses_ofCommand plain ran).fits named positional

end ScreenScript
