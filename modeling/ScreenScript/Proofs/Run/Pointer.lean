import ScreenScript.Proofs.Run.Recorded
import ScreenScript.Proofs.Screen.Coordinates

namespace ScreenScript

open Attempt (Keeps keeps_bind)

variable {σ α : Type}

def Call.position? : Call → Option Point
  | input event => event.position?
  | _ => none

namespace Recorded

def Pointed (w : Surroundings σ) (calls : List (Call × σ)) : Prop :=
  ∀ call state before position, (call, state) :: before <:+ calls → call.position? = some position →
    ∃ start size earlier, before = (.logicalSize, start) :: earlier ∧
      w.logicalSize.on start = (.ok size, state) ∧ position.IsOn size

variable {w : Surroundings σ} {calls own base : List (Call × σ)} {call : Call} {state : σ}

theorem pointed_nil (w : Surroundings σ) : Pointed w [] := by
  intro call state before position h
  cases List.suffix_nil.1 h

theorem pointed_cons : Pointed w ((call, state) :: calls) ↔ Pointed w calls ∧
    ∀ position, call.position? = some position →
      ∃ start size earlier, calls = (.logicalSize, start) :: earlier ∧
        w.logicalSize.on start = (.ok size, state) ∧ position.IsOn size := by
  constructor
  · intro h
    refine ⟨fun call' state' before position suffix => ?_, fun position => ?_⟩
    · exact h call' state' before position (suffix.trans (List.suffix_cons _ _))
    · exact h call state calls position (List.suffix_refl _)
  · rintro ⟨old, new⟩ call' state' before position suffix
    rcases List.suffix_cons_iff.1 suffix with here | earlier
    · cases here
      exact new position
    · exact old call' state' before position earlier

theorem Pointed.append (h : Pointed w own) (old : Pointed w base) : Pointed w (own ++ base) := by
  induction own with
  | nil => exact old
  | cons last own ih =>
      obtain ⟨before, new⟩ := pointed_cons.1 h
      refine pointed_cons.2 ⟨ih before, fun position sent => ?_⟩
      obtain ⟨start, size, earlier, rfl, answer, on⟩ := new position sent
      exact ⟨start, size, earlier ++ base, rfl, answer, on⟩

def Tracks (w : Surroundings σ) (base : List (Call × σ)) (t : Recorded σ) : Prop :=
  ∃ own, t.calls = own ++ base ∧ Pointed w own

def Measured (w : Surroundings σ) (base : List (Call × σ)) (size : Size) (t : Recorded σ) : Prop :=
  ∃ own start, t.calls = (.logicalSize, start) :: own ++ base ∧ Pointed w own ∧
    w.logicalSize.on start = (.ok size, t.world)

variable {t : Recorded σ}

theorem tracks_self (w : Surroundings σ) (t : Recorded σ) : t.Tracks w t.calls :=
  ⟨[], rfl, pointed_nil w⟩

theorem Tracks.after (h : t.Tracks w base) (other : call.position? = none) (world : σ) :
    (t.after call world).Tracks w base := by
  obtain ⟨own, calls, pointed⟩ := h
  refine ⟨(call, t.world) :: own, congrArg _ calls, pointed_cons.2 ⟨pointed, ?_⟩⟩
  intro position sent
  rw [other] at sent
  cases sent

theorem Tracks.measured (h : t.Tracks w base) {size : Size} {world : σ}
    (answer : w.logicalSize.on t.world = (.ok size, world)) :
    (t.after .logicalSize world).Measured w base size := by
  obtain ⟨own, calls, pointed⟩ := h
  exact ⟨own, t.world, congrArg _ calls, pointed, answer⟩

theorem Measured.tracks {size : Size} (h : t.Measured w base size) : t.Tracks w base := by
  obtain ⟨own, start, calls, pointed, -⟩ := h
  exact ⟨(.logicalSize, start) :: own, calls, pointed_cons.2 ⟨pointed, nofun⟩⟩

theorem Measured.input {size : Size} (h : t.Measured w base size) {event : InputEvent}
    (on : ∀ position, event.position? = some position → position.IsOn size) (world : σ) :
    (t.after (.input event) world).Tracks w base := by
  obtain ⟨own, start, calls, pointed, answer⟩ := h
  refine ⟨(.input event, t.world) :: (.logicalSize, start) :: own, congrArg _ calls, ?_⟩
  refine pointed_cons.2 ⟨pointed_cons.2 ⟨pointed, nofun⟩, fun position sent => ?_⟩
  exact ⟨start, size, own, rfl, answer, on position sent⟩

end Recorded

/-! ## Searches -/

namespace Search

variable {base : List (Call × σ)}

theorem keeps_tracks_attempt (w : Surroundings σ) {call : Call} (other : call.position? = none)
    (a : Attempt σ α) :
    Keeps (fun t => t.world.Tracks w base) (fun t => t.world.Tracks w base)
      (onWorld (Recorded.attempt call a)) :=
  fun _ tracks => tracks.after other _

theorem keeps_tracks_answer (w : Surroundings σ) {call : Call} (other : call.position? = none)
    (a : StateM σ α) :
    Keeps (fun t => t.world.Tracks w base) (fun t => t.world.Tracks w base)
      (onClock (Recorded.answer call a)) :=
  fun _ tracks => tracks.after other _

theorem habit_tracks (w : Surroundings σ) (base : List (Call × σ)) :
    Habit w.recorded fun t => t.world.Tracks w base where
  remember _ _ tracks _ := tracks
  note _ _ _ := id
  capture _ tracks := keeps_tracks_attempt w rfl w.capture _ tracks.1
  logicalSize := keeps_tracks_attempt w rfl w.logicalSize
  sleep nanoseconds := keeps_tracks_answer w rfl (w.sleep nanoseconds)
  now := keeps_tracks_answer w rfl w.now

end Search

/-! ## Instructions -/

namespace Session

variable {w : World σ} {base : List (Call × σ)}

theorem habit_tracks (w : World σ) (base : List (Call × σ)) :
    Habit w.recorded (fun t => t.world.Tracks w.toSurroundings base) (fun _ => True) where
  weaken _ _ := trivial
  note _ _ _ := id
  rebind _ _ := id
  read b backed name := by
    obtain ⟨b, -, rfl⟩ := Option.map_eq_some_iff.1 backed
    exact keeps_world_onSearch (Search.keeps_tracks_attempt w.toSurroundings rfl _)
  write b backed name value := by
    obtain ⟨b, -, rfl⟩ := Option.map_eq_some_iff.1 backed
    exact keeps_world_onSearch (Search.keeps_tracks_attempt w.toSurroundings rfl _)
  template id := keeps_world_onSearch (Search.keeps_tracks_attempt w.toSurroundings rfl _)
  logicalSize := keeps_world_onSearch (Search.keeps_tracks_attempt w.toSurroundings rfl _)
  sleep nanoseconds := keeps_world_onSearch (Search.keeps_tracks_answer w.toSurroundings rfl _)
  search template policy := by
    apply keeps_world_during
    exact keeps_world_onSearch
      ((Search.habit_tracks w.toSurroundings base).keeps_run template policy)
  act _ _ _ := trivial

theorem keeps_tracks_act {event : InputEvent} (other : event.position? = none) :
    Keeps (fun t => t.world.Tracks w.toSurroundings base)
      (fun t => t.world.Tracks w.toSurroundings base) (act w.recorded event) := by
  have other : (Call.input event).position? = none := other
  apply keeps_world_during
  exact fun t tracks => tracks.after other _

theorem keeps_tracks_pointer {size : Size} {event : InputEvent}
    (on : ∀ position, event.position? = some position → position.IsOn size) :
    Keeps (fun t => t.world.Measured w.toSurroundings base size)
      (fun t => t.world.Tracks w.toSurroundings base) (act w.recorded event) := by
  apply keeps_world_during
  exact fun t measured => measured.input on _

theorem keeps_tracks_measured {f : Size → Attempt (Session (Recorded σ)) α}
    (rest : ∀ size, Keeps (fun t => t.world.Measured w.toSurroundings base size)
      (fun t => t.world.Tracks w.toSurroundings base) (f size)) :
    Keeps (fun t => t.world.Tracks w.toSurroundings base)
      (fun t => t.world.Tracks w.toSurroundings base) (onWorld w.recorded.logicalSize >>= f) := by
  intro t tracks
  have asked : (onWorld w.recorded.logicalSize).on t = ((w.logicalSize.on t.world.world).1,
      t.inWorld (t.world.after .logicalSize (w.logicalSize.on t.world.world).2)) :=
    rfl
  rw [Attempt.on_bind, asked]
  rcases answer : w.logicalSize.on t.world.world with ⟨result, world⟩
  cases result with
  | error failure => exact tracks.after rfl world
  | ok size => exact rest size _ (tracks.measured answer)

theorem keeps_tracks_visit (place : Place) (target : Target) (bestEffort : Bool)
    {event : Point → InputEvent} (sent : ∀ p, (event p).position? = some p) :
    Keeps (fun t => t.world.Tracks w.toSurroundings base)
      (fun t => t.world.Tracks w.toSurroundings base)
      (visit w.recorded place target bestEffort event) := by
  have locates := ((habit_tracks w base).accord.agrees_locate target).keeps
  refine keeps_bind locates (fun located => ?_) fun _ => id
  obtain ⟨id, outcome⟩ := located
  cases location : outcome.result.location with
  | none =>
      simp only [location]
      cases bestEffort with
      | true => exact fun _ tracks => tracks
      | false => exact fun _ tracks => tracks
  | some raw =>
      simp only [location]
      -- The size is asked for after the search, so that the event is sent right after the answer.
      refine keeps_tracks_measured fun size => ?_
      have goes : Keeps (fun t => t.world.Measured w.toSurroundings base size)
          (fun t => t.world.Tracks w.toSurroundings base)
          (act w.recorded (event (raw.onScreen outcome.scale size))) := by
        refine keeps_tracks_pointer fun position goes => ?_
        rw [sent] at goes
        cases goes
        exact Point.isOn_onScreen raw outcome.scale size
      exact keeps_bind (fun _ measured => measured) (fun _ => goes) fun _ => Recorded.Measured.tracks

theorem keeps_tracks_perform (place : Place) (action : Action) :
    Keeps (fun t => t.world.Tracks w.toSurroundings base)
      (fun t => t.world.Tracks w.toSurroundings base) (perform w.recorded place action) := by
  have accord := (habit_tracks w base).accord
  cases action with
  | click target bestEffort => exact keeps_tracks_visit place target bestEffort fun _ => rfl
  | hover target bestEffort => exact keeps_tracks_visit place target bestEffort fun _ => rfl
  | clickAt x y =>
      refine keeps_bind (accord.agrees_evaluateNumber x).keeps (fun x => ?_) fun _ => id
      refine keeps_bind (accord.agrees_evaluateNumber y).keeps (fun y => ?_) fun _ => id
      refine keeps_tracks_measured fun size => keeps_tracks_pointer fun position sent => ?_
      cases sent
      exact Point.isOn_clamp ⟨x, y⟩ size
  | scroll direction amount =>
      exact keeps_bind (accord.agrees_evaluateCount amount).keeps (fun steps => keeps_tracks_act rfl)
        fun _ => id
  | type p | press p =>
      exact keeps_bind (accord.agrees_render p).keeps (fun _ => keeps_tracks_act rfl) fun _ => id
  | launch p =>
      refine keeps_bind (accord.agrees_render p).keeps (fun target => ?_) fun _ => id
      exact keeps_bind (fun _ tracks => tracks) (fun _ => keeps_tracks_act rfl) fun _ => id
  | wait nanoseconds =>
      refine keeps_bind (accord.sleep nanoseconds).keeps (fun complete => ?_) fun _ => id
      cases complete <;> exact fun _ tracks => tracks
  | log p => exact keeps_bind (accord.agrees_render p).keeps (fun _ _ tracks => tracks) fun _ => id
  | assign name e =>
      refine keeps_bind (accord.agrees_evaluate e).keeps (fun value => ?_) fun _ => id
      exact keeps_bind (fun _ tracks => tracks) (fun _ => (accord.agrees_assign name value).keeps)
        fun _ => id
  | abort reason =>
      cases reason with
      | none => exact fun _ tracks => tracks
      | some p =>
          exact keeps_bind (accord.agrees_renderOrShow p).keeps (fun _ _ tracks => tracks) fun _ => id

theorem keeps_tracks_step (w : World σ) (base : List (Call × σ)) (i : Instruction) :
    Keeps (fun t => t.world.Tracks w.toSurroundings base)
      (fun t => t.world.Tracks w.toSurroundings base) (step w.recorded i) := by
  have accord := (habit_tracks w base).accord
  cases i with
  | act place action =>
      exact (Attempt.agrees_map (keeps_tracks_perform place action).agrees _).keeps
  | loop place count body =>
      exact (Attempt.agrees_map (accord.agrees_evaluateCount count) _).keeps
  | branch place target found missed =>
      exact keeps_bind (accord.agrees_locate target).keeps (fun _ _ tracks => tracks) fun _ => id
  | guard place body => exact fun _ tracks => tracks

theorem tracks_step (w : World σ) (i : Instruction) (t : Session (Recorded σ)) :
    ((step w.recorded i).on t).2.world.Tracks w.toSurroundings t.world.calls :=
  keeps_tracks_step w t.world.calls i t (t.world.tracks_self _)

end Session

/-! ## Runs -/

section Runs

variable {w : World σ} {program : Program} {s : Session σ} {m : Machine (Recorded σ)}

theorem Recorded.Tracks.pointed {w : Surroundings σ} {base : List (Call × σ)} {t : Recorded σ}
    (h : t.Tracks w base) (old : Pointed w base) : Pointed w t.calls := by
  obtain ⟨own, calls, pointed⟩ := h
  rw [calls]
  exact pointed.append old

theorem Machine.pointed_of_made (pointed : Recorded.Pointed w.toSurroundings m.session.world.calls)
    {i : Instruction} {result : Except Failure Flow} {after : Session (Recorded σ)}
    (made : (Session.step w.recorded i).on (m.dispatched i) = (result, after)) :
    Recorded.Pointed w.toSurroundings after.world.calls := by
  have tracks := Session.tracks_step w i (m.dispatched i)
  rw [made] at tracks
  exact tracks.pointed pointed

theorem Machine.pointed_of_passes
    (passes : Passes w.recorded (s.recorded.launch w.recorded program) m) :
    Recorded.Pointed w.toSurroundings m.session.world.calls := by
  refine passes.keeps_session (I := fun t => Recorded.Pointed w.toSurroundings t.world.calls)
    ?_ ?_ ?_
  · exact Recorded.pointed_cons.2 ⟨Recorded.pointed_nil _, nofun⟩
  · exact fun k i result after pointed _ made => pointed_of_made pointed made
  · exact fun t index line failure pointed => pointed

theorem Session.pointed_of_finish {out : Session (Recorded σ) × Option FailureReport}
    (passes : Machine.Passes w.recorded (s.recorded.launch w.recorded program) m)
    (finish : Finish w.recorded m out) : Recorded.Pointed w.toSurroundings out.1.world.calls := by
  have pointed := Machine.pointed_of_passes passes
  cases finish with
  | completed _ => rwa [world_changed]
  | aborted _ => rwa [world_noted, world_changed]
  | gaveUp _ _ _ made =>
      rw [world_noted, world_changed]
      exact Machine.pointed_of_made pointed made
  | failed _ _ _ made _ _ =>
      rw [world_noted, world_changed]
      exact Machine.pointed_of_made pointed made

/-- Where the pointer goes in a run, by the calls of the recorded run. -/
structure Session.OnScreen (w : World σ) (program : Program) (s : Session σ)
    (runId : Option String) : Prop where
  recorded_eq : s.execute w program runId = ((s.recorded.execute w.recorded program runId).1,
    (s.recorded.execute w.recorded program runId).2.project Recorded.world)
  events : Recorded.Pointed w.toSurroundings
    (s.recorded.execute w.recorded program runId).2.session.world.calls
  /-- An instruction asks for the size of the screen itself. -/
  instructions : ∀ m i result after,
    Machine.Passes w.recorded (s.recorded.launch w.recorded program) m →
      (step w.recorded i).on (m.dispatched i) = (result, after) →
        after.world.Tracks w.toSurroundings m.session.world.calls

/--
Every click and every move of a run is on the screen: wherever a template was found and whatever the
expressions of a script come to, it goes to a point within the size that was reported for this action.
-/
theorem Session.execute_onScreen (w : World σ) (program : Program) (s : Session σ)
    (runId : Option String) : OnScreen w program s runId where
  recorded_eq := execute_recorded w program s runId
  events := by
    obtain ⟨m, passes, finish⟩ := exists_finish w.recorded program s.recorded
    have pointed := pointed_of_finish passes finish
    rw [execute_eq]
    -- The last call of a run reads the clock.
    exact Recorded.pointed_cons.2 ⟨pointed, nofun⟩
  instructions m i result after _ made := by
    have tracks := tracks_step w i (m.dispatched i)
    rwa [made] at tracks

end Runs

end ScreenScript
