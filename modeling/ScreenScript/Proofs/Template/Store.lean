import ScreenScript.Proofs.Disk.Reading
import ScreenScript.Proofs.Except
import ScreenScript.Template.Store

namespace ScreenScript

variable {σ : Type} {d : Disk σ} {disk : σ} {id : String} {t : Template}

namespace Template

theorem id_of_withThreshold {threshold : Float} {t' : Template}
    (h : t.withThreshold threshold = .ok t') : t'.id = t.id := by
  unfold withThreshold at h
  split at h
  · cases h
    rfl
  · cases h

theorem id_of_ofMetadata {image : Gray} {metadata : Template.Metadata}
    (h : ofMetadata id image metadata = .ok t) : t.id = id := by
  obtain ⟨declared, threshold, region⟩ := metadata
  unfold ofMetadata at h
  cases threshold with
  | none =>
      cases declared with
      | none =>
          cases h
          rfl
      | some other =>
          dsimp only at h
          split at h
          · cases h
          · cases h
            rfl
  | some threshold =>
      cases declared with
      | none => exact id_of_withThreshold h
      | some other =>
          dsimp only at h
          split at h
          · cases h
          · exact id_of_withThreshold h

theorem id_of_readingImage {root file : String}
    (h : (readingImage root id file).run.run d disk = .ok t) : t.id = id := by
  rw [readingImage, Disk.Reading.run_bindT] at h
  obtain ⟨shown, -, h⟩ := Except.bind_eq_ok_iff.1 h
  split at h
  · cases h
  split at h
  · cases h
  · rw [Disk.Reading.run_bindT] at h
    obtain ⟨metadata, -, h⟩ := Except.bind_eq_ok_iff.1 h
    exact id_of_ofMetadata h

theorem id_of_read {root : Option String} (h : read d disk root id = .ok t) : t.id = id := by
  unfold read reading at h
  rw [Disk.Reading.run_bindT] at h
  obtain ⟨-, -, h⟩ := Except.bind_eq_ok_iff.1 h
  cases root with
  | none => cases h
  | some root =>
      rw [Disk.Reading.run_bindT] at h
      obtain ⟨file?, -, h⟩ := Except.bind_eq_ok_iff.1 h
      cases file? with
      | none => cases h
      | some file => exact id_of_readingImage h

end Template

namespace TemplateStore

variable {s : TemplateStore}

theorem lookup_insert (s : TemplateStore) (t : Template) (id : String) :
    (s.insert t).lookup id = if id = t.id then some t else s.lookup id :=
  NameMap.get?_insert s.kept t.id id t

theorem fetch_of_lookup (h : s.lookup id = some t) (d : Disk σ) (disk : σ) :
    s.fetch d disk id = (.ok t, s) := by
  rw [fetch, fetching, h]
  rfl

theorem fetching_of_absent (absent : s.lookup id = none) :
    s.fetching id = (Template.reading s.root id).run >>= fun
      | .ok t => pure (.ok t, { s with kept := s.kept.insert id t })
      | .error fault => pure (.error (fault.failure id), s) := by
  rewrite [fetching, absent]
  rfl

theorem loading_eq_fetching (id : String) (s : TemplateStore) : s.loading id = s.fetching id := by
  cases found : s.lookup id with
  | some t => rw [loading, fetching, found]
  | none => rw [loading, found]

theorem fetch_of_ok (absent : s.lookup id = none) (made : Template.read d disk s.root id = .ok t) :
    s.fetch d disk id = (.ok t, s.insert t) := by
  have same : s.insert t = { s with kept := s.kept.insert id t } := by
    rw [insert, Template.id_of_read made]
  rw [Template.read] at made
  rw [fetch, fetching_of_absent absent, Disk.Reading.run_bind, made, same]
  rfl

theorem fetch_of_error {fault : Template.Fault} (absent : s.lookup id = none)
    (made : Template.read d disk s.root id = .error fault) :
    s.fetch d disk id = (.error (fault.failure id), s) := by
  rw [Template.read] at made
  rw [fetch, fetching_of_absent absent, Disk.Reading.run_bind, made]
  rfl

inductive Fetches (d : Disk σ) (disk : σ) (id : String) (s : TemplateStore) :
    Except Failure Template × TemplateStore → Prop where
  | kept {t : Template} (found : s.lookup id = some t) : Fetches d disk id s (.ok t, s)
  | read {t : Template} (absent : s.lookup id = none)
    (made : Template.read d disk s.root id = .ok t) : Fetches d disk id s (.ok t, s.insert t)
  | failed {fault : Template.Fault} (absent : s.lookup id = none)
    (made : Template.read d disk s.root id = .error fault) :
    Fetches d disk id s (.error (fault.failure id), s)

theorem fetches (d : Disk σ) (disk : σ) (id : String) (s : TemplateStore) :
    Fetches d disk id s (s.fetch d disk id) := by
  cases found : s.lookup id with
  | some t =>
      rw [fetch_of_lookup found]
      exact .kept found
  | none =>
      cases made : Template.read d disk s.root id with
      | error fault =>
          rw [fetch_of_error found made]
          exact .failed found made
      | ok t =>
          rw [fetch_of_ok found made]
          exact .read found made

theorem load_eq_fetch (d : Disk σ) (disk : σ) (id : String) (s : TemplateStore) :
    s.load d disk id = s.fetch d disk id := by
  rw [load, fetch, loading_eq_fetching]

/-- Whether a store keeps only what can be read. -/
def Faithful (read : String → Except Template.Fault Template) (s : TemplateStore) : Prop :=
  ∀ id t, s.lookup id = some t → read id = .ok t

variable {read : String → Except Template.Fault Template}

theorem faithful_empty (root : Option String) : ({ root } : TemplateStore).Faithful read :=
  nofun

theorem Faithful.insert (faithful : s.Faithful read) (h : read t.id = .ok t) :
    (s.insert t).Faithful read := by
  intro id u kept
  rw [lookup_insert] at kept
  by_cases same : id = t.id
  · rw [if_pos same] at kept
    cases kept
    rw [same, h]
  · rw [if_neg same] at kept
    exact faithful id u kept

theorem Faithful.load (faithful : s.Faithful read)
    (same : Template.read d disk s.root id = read id) :
    (s.load d disk id).1 = (read id).mapError (·.failure id) ∧
      (s.load d disk id).2.Faithful read ∧ (s.load d disk id).2.root = s.root := by
  rw [load_eq_fetch]
  have outcome := fetches d disk id s
  generalize s.fetch d disk id = out at outcome
  cases outcome with
  | kept found => exact ⟨by rw [faithful _ _ found]; rfl, faithful, rfl⟩
  | failed absent made => exact ⟨by rw [← same, made]; rfl, faithful, rfl⟩
  | read absent made =>
      have held : read id = .ok _ := same.symm.trans made
      refine ⟨by rw [held]; rfl, faithful.insert ?_, rfl⟩
      rw [Template.id_of_read made, held]

end TemplateStore

end ScreenScript
