import ScreenScript.Search.Round

namespace ScreenScript

/-- What a run acts on, and searches in. -/
structure World (σ : Type) extends Surroundings σ where
  searches_end : ∀ template policy started,
    WellFounded (Search.Again toSurroundings template policy started)

namespace World

variable {σ : Type} {time : σ → Nat}

def onClock (w : Surroundings σ) (keeps : w.KeepsTime time) : World σ where
  toSurroundings := w
  searches_end := Search.wellFounded_again keeps

end World

namespace Search

variable {σ : Type}

/--
Makes rounds until one has an outcome. The time runs from `started`, and `attempts` rounds have been
made before.
-/
def pollUntil (w : World σ) (template : Template) (policy : Policy) (started : Nat)
    (attempts : UInt32) (s : Search σ) : Except Failure Outcome × Search σ :=
  match _round : (round w.toSurroundings template policy started attempts).on s with
  | (.error failure, after) => (.error failure, after)
  | (.ok (some outcome), after) => (.ok outcome, after)
  | (.ok none, after) => pollUntil w template policy started (attempts + 1) after
  termination_by (w.searches_end template policy started).wrap (attempts, s)
  decreasing_by exact ⟨rfl, _round⟩

def run (w : World σ) (template : Template) (policy : Policy) : Attempt (Search σ) Outcome := do
  let started ← onClock w.now
  Attempt.of (pollUntil w template policy started 0)

end Search

end ScreenScript
