import ScreenScript.Run.Report

namespace ScreenScript

structure Walk (σ : Type) where
  session : Session σ
  executed : Nat := 0

def Course (σ : Type) := Walk σ → Ending × Walk σ

namespace Course

variable {σ : Type}

def done : Course σ := fun k => (.completed, k)

def andThen (a b : Course σ) : Course σ := fun k =>
  match a k with
  | (.completed, k) => b k
  | stopped => stopped

def times (a : Course σ) : Nat → Course σ
  | 0 => done
  | n + 1 => a.andThen (times a n)

def look (w : World σ) : Course σ := fun k =>
  if w.aborted k.session.world then (.stopped none .aborted, k) else (.completed, k)

/--
Carries out an instruction: `own` is what it does by itself, and `inner` runs what it holds. Inside a
guard, a target that is missing or never appears is noted, and the instruction is over.
-/
def carryOut {α : Type} (guarded : Bool) (i : Instruction) (own : Attempt (Session σ) α)
    (inner : α → Course σ) : Course σ := fun k =>
  match own.on (k.session.noted (.dispatch i.index i.line i.keyword)) with
  | (.ok x, session) => inner x ⟨session, k.executed + 1⟩
  | (.error failure, session) =>
    if guarded && failure.isRecoverable then
      (.completed, ⟨session.noted (.skipped i.index i.line failure), k.executed + 1⟩)
    else (.stopped (some i) failure, ⟨session, k.executed + 1⟩)

def dispatch {α : Type} (w : World σ) (guarded : Bool) (i : Instruction)
    (own : Attempt (Session σ) α) (inner : α → Course σ) : Course σ :=
  (look w).andThen (carryOut guarded i own inner)

@[simp]
theorem done_andThen (a : Course σ) : done.andThen a = a :=
  rfl

@[simp]
theorem andThen_done (a : Course σ) : a.andThen done = a := by
  funext k
  simp only [andThen]
  rcases a k with ⟨ending, k'⟩
  cases ending <;> rfl

theorem andThen_assoc (a b c : Course σ) : (a.andThen b).andThen c = a.andThen (b.andThen c) := by
  funext k
  simp only [andThen]
  rcases a k with ⟨ending, k'⟩
  cases ending <;> rfl

theorem andThen_of_stopped {a b : Course σ} {k k' : Walk σ} {place? : Option Instruction}
    {failure : Failure} (h : a k = (.stopped place? failure, k')) :
    (a.andThen b) k = (.stopped place? failure, k') := by
  simp only [andThen, h]

theorem andThen_of_completed {a b : Course σ} {k k' : Walk σ} (h : a k = (.completed, k')) :
    (a.andThen b) k = b k' := by
  simp only [andThen, h]

@[simp]
theorem times_done (n : Nat) : (done : Course σ).times n = done := by
  induction n with
  | zero => rfl
  | succ n ih => simp only [times, done_andThen, ih]

theorem dispatch_map {α β : Type} (w : World σ) (guarded : Bool) (i : Instruction)
    (own : Attempt (Session σ) α) (f : α → β) (inner : β → Course σ) :
    dispatch w guarded i (f <$> own) inner = dispatch w guarded i own fun x => inner (f x) := by
  rw [dispatch, dispatch]
  congr 1
  funext k
  rw [carryOut, carryOut, Attempt.on_map]
  rcases own.on _ with ⟨result, session⟩
  cases result <;> rfl

end Course

namespace Session

variable {σ : Type}

def seek (w : World σ) (target : Target) : Attempt (Session σ) Bool := do
  let (id, outcome) ← locate w target
  note (.branch id outcome.result.found outcome.result.score)
  return outcome.result.found

end Session

namespace Instruction

variable {σ : Type}

mutual

def interpret (w : World σ) (guarded : Bool) : Instruction → Course σ
  | act place action =>
    .dispatch w guarded (.act place action) (Session.perform w place action) fun _ => .done
  | loop place count body =>
    .dispatch w guarded (.loop place count body) (count.evaluateCount (Session.lookup w)) fun n =>
      (interpretAll w guarded body).times n.toNat
  | branch place target found missed =>
    .dispatch w guarded (.branch place target found missed) (Session.seek w target) fun isFound =>
      if isFound then interpretAll w guarded found else interpretAll w guarded missed
  | guard place body =>
    .dispatch w guarded (.guard place body) (pure ()) fun _ => interpretAll w true body

def interpretAll (w : World σ) (guarded : Bool) : List Instruction → Course σ
  | [] => .done
  | i :: rest => (interpret w guarded i).andThen (interpretAll w guarded rest)

end

end Instruction

def Program.interpret {σ : Type} (w : World σ) (p : Program) : Course σ :=
  (Instruction.interpretAll w false p.instructions).andThen (.look w)

/-- Runs a program in a session by recursion, and gives the report with the session at the end. -/
def Session.interpret {σ : Type} (w : World σ) (program : Program) (s : Session σ)
    (runId : Option String := none) : Report × Session σ :=
  let (started, world) := w.now s.world
  let (ending, last) := program.interpret w { session := (s.inWorld world).fresh }
  let (session, failure) := settle ending last.session
  let (ended, world) := w.now session.world
  ({ runId, status := session.status, executed := last.executed
     elapsedMs := Duration.milliseconds (ended - started), failure }, session.inWorld world)

end ScreenScript
