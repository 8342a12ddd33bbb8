import ScreenScript.Text.Quoted

namespace ScreenScript.Text

def escapeChar : Char → List Char
  | '\\' => ['\\', '\\']
  | '"' => ['\\', '"']
  | '\n' => ['\\', 'n']
  | '\t' => ['\\', 't']
  | c => [c]

def escape (cs : List Char) : List Char :=
  cs.flatMap escapeChar

variable {escapes : Escapes}

structure Escapes.Standard (escapes : Escapes) : Prop where
  backslash : escapes '\\' = ['\\']
  quote : escapes '"' = ['"']
  newline : escapes 'n' = ['\n']
  tab : escapes 't' = ['\t']

theorem readQuoted_escapeChar (standard : escapes.Standard) (c : Char) {cs content rest : List Char}
    (h : readQuoted escapes cs = some (content, rest)) :
    readQuoted escapes (escapeChar c ++ cs) = some (c :: content, rest) := by
  unfold escapeChar
  split
  · rw [List.cons_append, List.singleton_append, readQuoted, h, standard.backslash]
    rfl
  · rw [List.cons_append, List.singleton_append, readQuoted, h, standard.quote]
    rfl
  · rw [List.cons_append, List.singleton_append, readQuoted, h, standard.newline]
    rfl
  · rw [List.cons_append, List.singleton_append, readQuoted, h, standard.tab]
    rfl
  · rename_i notBackslash notQuote _ _
    rw [List.singleton_append, readQuoted.eq_5 escapes c cs notQuote
      (fun same => absurd same notBackslash) (fun _ _ same => absurd same notBackslash), h]
    rfl

theorem readQuoted_escape (standard : escapes.Standard) (cs rest : List Char) :
    readQuoted escapes (escape cs ++ '"' :: rest) = some (cs, rest) := by
  induction cs with
  | nil => rfl
  | cons c cs ih =>
      rw [escape, List.flatMap_cons, ← escape, List.append_assoc]
      exact readQuoted_escapeChar standard c ih

theorem newline_notMem_escape (cs : List Char) : '\n' ∉ escape cs := by
  intro feed
  obtain ⟨c, -, member⟩ := List.mem_flatMap.1 feed
  unfold escapeChar at member
  split at member
  · simp at member
  · simp at member
  · simp at member
  · simp at member
  · rename_i _ _ notNewline _
    exact notNewline (List.mem_singleton.1 member).symm

end ScreenScript.Text
