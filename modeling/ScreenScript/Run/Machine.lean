import ScreenScript.Run.Session

namespace ScreenScript

structure Frame where
  body : List Instruction
  done : Nat := 0
  /-- The passes left, with the current one. -/
  passes : Nat := 1
  guarded : Bool := false

/-- What comes after an instruction that succeeded. -/
inductive Flow where
  | next
  | enter (body : List Instruction) (passes : UInt32)
  | guard (body : List Instruction)

inductive Ending where
  | completed
  /-- An instruction failed, or the run was aborted between two instructions. -/
  | stopped (place? : Option Instruction) (failure : Failure)

structure Machine (σ : Type) where
  session : Session σ
  frames : List Frame
  executed : Nat := 0

inductive Machine.Step (σ : Type) where
  | ended (ending : Ending) (machine : Machine σ)
  | goesOn (machine : Machine σ)

namespace Instruction

def maxPasses : Nat := UInt32.size

mutual

def work : Instruction → Nat
  | act .. => 1
  | loop _ _ body => maxPasses * (workAll body + 1) + 2
  | branch _ _ found missed => workAll found + workAll missed + 3
  | guard _ body => workAll body + 3

def workAll : List Instruction → Nat
  | [] => 0
  | i :: rest => work i + workAll rest

end

theorem work_pos (i : Instruction) : 0 < i.work := by
  cases i <;> simp [work]

theorem workAll_drop {body : List Instruction} {n : Nat} {i : Instruction}
    (h : body[n]? = some i) : workAll (body.drop n) = i.work + workAll (body.drop (n + 1)) := by
  obtain ⟨inside, rfl⟩ := List.getElem?_eq_some_iff.1 h
  rw [List.drop_eq_getElem_cons inside, workAll]

end Instruction

namespace Frame

def cost (f : Frame) : Nat :=
  (f.passes - 1) * (Instruction.workAll f.body + 1) + Instruction.workAll (f.body.drop f.done) + 1

def costAll : List Frame → Nat
  | [] => 0
  | f :: rest => f.cost + costAll rest

theorem costAll_append (above below : List Frame) :
    costAll (above ++ below) = costAll above + costAll below := by
  induction above with
  | nil => simp [costAll]
  | cons f rest ih => simp only [List.cons_append, costAll, ih, Nat.add_assoc]

end Frame

namespace Flow

def frame? (guarded : Bool) : Flow → Option Frame
  | next => none
  | enter body passes =>
    if passes = 0 ∨ body = [] then none else some { body, passes := passes.toNat, guarded }
  | guard body => if body = [] then none else some { body, guarded := true }

def cost : Flow → Nat
  | next => 0
  | enter body passes => passes.toNat * (Instruction.workAll body + 1) + 1
  | guard body => Instruction.workAll body + 2

theorem costAll_frame?_le (guarded : Bool) (flow : Flow) :
    Frame.costAll (flow.frame? guarded).toList ≤ flow.cost := by
  cases flow with
  | next => simp [frame?, Frame.costAll, cost]
  | enter body passes =>
    by_cases h : passes = 0 ∨ body = []
    · simp [frame?, h, Frame.costAll]
    · have some : 0 < passes.toNat := by
        rcases Nat.eq_zero_or_pos passes.toNat with zero | pos
        · exact absurd (.inl (UInt32.toNat_inj.1 zero)) h
        · exact pos
      obtain ⟨n, hn⟩ := Nat.exists_eq_add_of_lt some
      simp only [frame?, h, if_false, Frame.costAll, Frame.cost, Option.toList, List.drop_zero, cost,
        hn]
      rw [Nat.zero_add, Nat.add_sub_cancel, Nat.add_mul n 1]
      omega
  | guard body =>
    by_cases h : body = []
    · simp [frame?, h, Frame.costAll, cost]
    · simp [frame?, h, Frame.costAll, Frame.cost, cost]

end Flow

namespace Session

variable {σ : Type}

def step (w : World σ) : Instruction → Attempt (Session σ) Flow
  | .act place action => (fun _ => Flow.next) <$> perform w place action
  | .loop _ count body => Flow.enter body <$> count.evaluateCount (lookup w)
  | .branch _ target found missed => do
    let (id, outcome) ← locate w target
    note (.branch id outcome.result.found outcome.result.score)
    return .enter (if outcome.result.found then found else missed) 1
  | .guard _ body => return .guard body

theorem cost_lt_of_step {w : World σ} {i : Instruction} {s t : Session σ} {flow : Flow}
    (h : (step w i).on s = (.ok flow, t)) : flow.cost < i.work := by
  cases i with
  | act place action =>
    rw [step, Attempt.on_map] at h
    rcases found : (perform w place action).on s with ⟨result, after⟩
    rw [found] at h
    cases result <;> cases h
    simp [Flow.cost, Instruction.work]
  | loop place count body =>
    rw [step, Attempt.on_map] at h
    rcases found : (count.evaluateCount (lookup w)).on s with ⟨result, after⟩
    rw [found] at h
    cases result with
    | error => cases h
    | ok passes =>
      cases h
      have below : passes.toNat ≤ Instruction.maxPasses := Nat.le_of_lt passes.toNat_lt_size
      have := Nat.mul_le_mul_right (Instruction.workAll body + 1) below
      simp only [Flow.cost, Instruction.work]
      omega
  | branch place target found missed =>
    rw [step] at h
    obtain ⟨⟨id, outcome⟩, after, -, h⟩ := Attempt.on_bind_eq_ok.1 h
    obtain ⟨-, noted, -, h⟩ := Attempt.on_bind_eq_ok.1 h
    cases h
    have one : (1 : UInt32).toNat = 1 := rfl
    simp only [Flow.cost, Instruction.work, one]
    split <;> omega
  | guard place body =>
    cases h
    simp [Flow.cost, Instruction.work]

end Session

namespace Machine

variable {σ : Type}

def start (program : Program) (session : Session σ) : Machine σ :=
  { session, frames := [{ body := program.instructions }] }

def next (w : World σ) (m : Machine σ) : Step σ :=
  if w.aborted m.session.world then .ended (.stopped none .aborted) { m with frames := [] }
  else match m.frames with
    | [] => .ended .completed m
    | frame :: below =>
      match frame.body[frame.done]? with
      | none =>
        if 1 < frame.passes then
          .goesOn { m with frames := { frame with passes := frame.passes - 1, done := 0 } :: below }
        else .goesOn { m with frames := below }
      | some i =>
        let dispatched := m.session.noted (.dispatch i.index i.line i.keyword)
        let frames := { frame with done := frame.done + 1 } :: below
        let executed := m.executed + 1
        match (Session.step w i).on dispatched with
        | (.ok flow, session) =>
          .goesOn ⟨session, (flow.frame? frame.guarded).toList ++ frames, executed⟩
        | (.error failure, session) =>
          if frame.guarded && failure.isRecoverable then
            .goesOn ⟨session.noted (.skipped i.index i.line failure), frames, executed⟩
          else .ended (.stopped (some i) failure) ⟨session, [], executed⟩

def cost (m : Machine σ) : Nat :=
  Frame.costAll m.frames

theorem next_cost_lt {w : World σ} {m n : Machine σ} (h : m.next w = .goesOn n) :
    n.cost < m.cost := by
  unfold next at h
  split at h
  · cases h
  · split at h
    · cases h
    · rename_i frame below frames
      have whole : m.cost = frame.cost + Frame.costAll below := by
        rw [cost, frames]
        simp [Frame.costAll]
      split at h
      · split at h <;> cases h
        · rename_i more
          obtain ⟨k, hk⟩ := Nat.exists_eq_add_of_lt more
          have passes : frame.passes - 1 = k + 1 := by omega
          rw [whole]
          simp only [cost, Frame.costAll, Frame.cost, List.drop_zero, passes, Nat.add_sub_cancel,
            Nat.add_mul k 1]
          omega
        · rw [whole]
          have positive : 0 < frame.cost := Nat.succ_pos _
          simp only [cost]
          omega
      · rename_i i found
        have rest : ({ frame with done := frame.done + 1 } : Frame).cost + i.work = frame.cost := by
          simp only [Frame.cost, Instruction.workAll_drop found]
          omega
        have positive := i.work_pos
        simp only at h
        split at h
        · rename_i flow session stepped
          cases h
          have opened := Flow.costAll_frame?_le frame.guarded flow
          have flowed := Session.cost_lt_of_step stepped
          rw [whole, ← rest]
          simp only [cost, Frame.costAll_append, Frame.costAll]
          omega
        · split at h <;> cases h
          rw [whole, ← rest]
          simp only [cost, Frame.costAll]
          omega

def run (w : World σ) (m : Machine σ) : Ending × Machine σ :=
  match _h : m.next w with
  | .ended ending last => (ending, last)
  | .goesOn n => run w n
  termination_by m.cost
  decreasing_by exact next_cost_lt _h

end Machine

end ScreenScript
