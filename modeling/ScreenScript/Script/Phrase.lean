import ScreenScript.Text.Characters

namespace ScreenScript

inductive Phrase.Segment where
  | literal (text : String)
  | reference (name : String)
  deriving DecidableEq, Repr

/-- Text with placeholders, in pieces. -/
structure Phrase where
  segments : List Phrase.Segment
  deriving DecidableEq, Repr

/-- Why a text is no phrase. -/
inductive Phrase.Fault where
  | unterminated (raw : String)
  | invalidName (name raw : String)

namespace Phrase

def Fault.message : Phrase.Fault → String
  | unterminated raw => "unterminated '$\x7b' in \"" ++ raw ++ "\""
  | invalidName name raw => s!"invalid variable name '{name}' in \"" ++ raw ++ "\""

def isBrace (c : Char) : Bool :=
  c = '\x7b' || c = '\x7d'

/-- The content of a placeholder and the text after it, given the text after its `${`. -/
def placeholder? (cs : List Char) : Option (List Char × List Char) :=
  match cs.dropWhile (!isBrace ·) with
  | '\x7d' :: rest => some (cs.takeWhile (!isBrace ·), rest)
  | _ => none

theorem length_lt_of_placeholder? {cs name rest : List Char}
    (h : placeholder? cs = some (name, rest)) : rest.length < cs.length := by
  unfold placeholder? at h
  split at h
  · rename_i tail found
    obtain ⟨-, rfl⟩ := Prod.mk.inj (Option.some.inj h)
    have shorter : (cs.dropWhile (!isBrace ·)).length ≤ cs.length :=
      (List.dropWhile_suffix (!isBrace ·)).length_le
    rw [found, List.length_cons] at shorter
    omega
  · cases h

def literalSegment (cs : List Char) : List Segment :=
  if cs.isEmpty then [] else [.literal (String.ofList cs)]

/-- Reads the pieces of a text; `run` holds, last first, the literal characters just before it. -/
def readSegments (raw : String) (run : List Char) : List Char → Except Fault (List Segment)
  | [] => .ok (literalSegment run.reverse)
  | '$' :: '\x7b' :: cs =>
    match _h : placeholder? cs with
    | none => .error (.unterminated raw)
    | some (content, rest) =>
      let name := String.ofList (Text.trim content)
      if isName name then do
        let segments ← readSegments raw [] rest
        return literalSegment run.reverse ++ .reference name :: segments
      else .error (.invalidName name raw)
  | c :: cs => readSegments raw (c :: run) cs
  termination_by cs => cs.length
  decreasing_by
    · have := length_lt_of_placeholder? _h
      simp only [List.length_cons]
      omega
    · simp

def parse (raw : String) : Except Fault Phrase := do
  return ⟨← readSegments raw [] raw.toList⟩

def ofString (s : String) : Phrase :=
  ⟨literalSegment s.toList⟩

def Segment.text? : Segment → Option String
  | literal text => some text
  | reference _ => none

def Segment.name? : Segment → Option String
  | literal _ => none
  | reference name => some name

def literal? (p : Phrase) : Option String :=
  (p.segments.mapM Segment.text?).map String.join

def names (p : Phrase) : List String :=
  p.segments.filterMap Segment.name?

def render {m : Type → Type} [Monad m] (lookup : String → m String) (p : Phrase) : m String := do
  let parts ← p.segments.mapM fun
    | .literal text => pure text
    | .reference name => lookup name
  return String.join parts

def Segment.written : Segment → String
  | literal text => text
  | reference name => "$\x7b" ++ name ++ "\x7d"

def written (p : Phrase) : String :=
  String.join (p.segments.map Segment.written)

end Phrase

end ScreenScript
