import ScreenScript.Proofs.Disk.NormalForm
import ScreenScript.Proofs.Template.Store

/-!
# What a load looks at

An id is accepted if and only if it is made of segments (`Template.checkId_iff`). A load looks only at the
four files that such an id names in the directory of the store (`TemplateStore.isFileOf_of_mem`), and at
each of them on some disk (`TemplateStore.IsFileOf.inspects`). Wherever the directory is, these files lie
below it (`TemplateStore.IsFileOf.below`).
-/

namespace ScreenScript

namespace Template

structure IsSegment (segment : List Char) : Prop where
  some : segment ≠ []
  notHere : segment ≠ ['.']
  notAbove : segment ≠ ['.', '.']
  plain : ∀ c ∈ segment, c.isAlphanum ∨ c ∈ ['_', '-', '.']

/-- Whether an id consists of segments, with single separators between them. -/
structure IsMadeOf (id : String) (segments : List (List Char)) : Prop where
  some : segments ≠ []
  isSegment : ∀ segment ∈ segments, IsSegment segment
  whole : id.toList = ['/'].intercalate segments

variable {id root : String} {segment : List Char} {segments : List (List Char)}

theorem IsSegment.separator_notMem (h : IsSegment segment) : '/' ∉ segment := by
  intro inside
  rcases h.plain _ inside with alphanumeric | mark
  · cases alphanumeric
  · simp at mark

theorem IsSegment.isUnsafeSegment_eq (h : IsSegment segment) : isUnsafeSegment segment = false := by
  simp [isUnsafeSegment, h.some, h.notHere, h.notAbove]

theorem IsMadeOf.segments_eq (h : IsMadeOf id segments) : Template.segments id.toList = segments := by
  rw [Template.segments, h.whole,
    Text.split_intercalate (fun segment member => (h.isSegment segment member).separator_notMem) h.some]

theorem isIdChar_iff (c : Char) :
    isIdChar c ↔ (c.isAlphanum ∨ c ∈ ['_', '-', '.']) ∨ c = '/' := by
  simp [isIdChar, or_assoc]

theorem nil_mem_segments {cs : List Char}
    (h : cs = [] ∨ cs.head? = some '/' ∨ cs.getLast? = some '/') : [] ∈ Template.segments cs := by
  rcases h with rfl | first | last
  · exact List.mem_singleton_self _
  · obtain ⟨rest, rfl⟩ := List.head?_eq_some_iff.1 first
    rw [Template.segments, Text.split, if_pos rfl]
    exact List.mem_cons_self
  · obtain ⟨before, rfl⟩ := List.getLast?_eq_some_iff.1 last
    rw [Template.segments, Text.split_append_sep]
    exact List.mem_append_right _ (List.mem_singleton_self _)

theorem IsMadeOf.checkId_eq (h : IsMadeOf id segments) : checkId id = .ok () := by
  -- The checks of the edges are about empty segments too.
  have filled : [] ∉ Template.segments id.toList := by
    rw [h.segments_eq]
    exact fun empty => (h.isSegment [] empty).some rfl
  have safe : ¬(Template.segments id.toList).any isUnsafeSegment := by
    rw [h.segments_eq, List.any_eq_true]
    rintro ⟨segment, member, isUnsafe⟩
    rw [(h.isSegment segment member).isUnsafeSegment_eq] at isUnsafe
    cases isUnsafe
  have plain : id.toList.all isIdChar := by
    rw [List.all_eq_true, h.whole]
    intro c inside
    rw [isIdChar_iff]
    rcases Text.mem_intercalate inside with rfl | ⟨segment, member, inside⟩
    · exact .inr rfl
    · exact .inl ((h.isSegment segment member).plain c inside)
  unfold checkId
  dsimp only
  rw [if_neg fun empty => filled (nil_mem_segments (.inl (List.isEmpty_iff.1 empty))),
    if_neg fun edge => filled (nil_mem_segments (.inr edge)), if_neg safe, plain]
  rfl

theorem isMadeOf_of_checkId (h : checkId id = .ok ()) : IsMadeOf id (Template.segments id.toList) := by
  unfold checkId at h
  dsimp only at h
  split at h
  · cases h
  split at h
  · cases h
  split at h
  · cases h
  rename_i safe
  split at h
  · cases h
  rename_i plain
  refine ⟨Text.split_ne_nil _ _, fun segment member => ?_, (Text.intercalate_split '/' _).symm⟩
  have kept : isUnsafeSegment segment = false :=
    Bool.eq_false_iff.2 fun isUnsafe => safe (List.any_eq_true.2 ⟨segment, member, isUnsafe⟩)
  simp only [isUnsafeSegment, Bool.or_eq_false_iff, decide_eq_false_iff_not, List.isEmpty_eq_false_iff]
    at kept
  refine ⟨kept.1.1, kept.1.2, kept.2, fun c inside => ?_⟩
  rw [Bool.not_eq_true', Bool.not_eq_false, List.all_eq_true] at plain
  refine ((isIdChar_iff c).1 (plain c (Text.mem_of_mem_split member inside))).resolve_right ?_
  rintro rfl
  exact Text.notMem_of_mem_split member inside

theorem checkId_iff : checkId id = .ok () ↔ ∃ segments, IsMadeOf id segments :=
  ⟨fun h => ⟨_, isMadeOf_of_checkId h⟩, fun ⟨_, h⟩ => h.checkId_eq⟩

/-! ## The files of an id -/

def extensions : List String := imageExtensions ++ ["json"]

def fileParts (extension : String) : List (List Char) → List (List Char)
  | [] => []
  | [last] => [last ++ '.' :: extension.toList]
  | segment :: rest => segment :: fileParts extension rest

variable {extension : String}

theorem fileParts_ne_nil (some : segments ≠ []) : fileParts extension segments ≠ [] := by
  match segments with
  | [] => exact absurd rfl some
  | [_] => exact List.cons_ne_nil _ _
  | _ :: _ :: _ => exact List.cons_ne_nil _ _

theorem intercalate_fileParts (some : segments ≠ []) :
    ['/'].intercalate (fileParts extension segments) =
      ['/'].intercalate segments ++ '.' :: extension.toList := by
  induction segments with
  | nil => exact absurd rfl some
  | cons segment rest ih =>
      cases rest with
      | nil => rw [fileParts, List.intercalate_singleton, List.intercalate_singleton]
      | cons next rest =>
          have more : next :: rest ≠ [] := List.cons_ne_nil _ _
          rw [fileParts.eq_def, List.intercalate_cons_of_ne_nil (fileParts_ne_nil more), ih more,
            List.intercalate_cons_of_ne_nil more]
          simp only [List.append_assoc]

theorem separator_notMem_of_mem_extensions (h : extension ∈ extensions) : '/' ∉ extension.toList := by
  simp only [extensions, imageExtensions, List.cons_append, List.nil_append, List.mem_cons,
    List.not_mem_nil, or_false] at h
  rcases h with rfl | rfl | rfl | rfl <;> decide

theorem IsSegment.isName (h : IsSegment segment) : Path.IsName segment where
  busy := by simp [Path.isIdle, h.some, h.notHere]
  down := h.notAbove
  single := h.separator_notMem

theorem IsSegment.isName_file (h : IsSegment segment) (plain : '/' ∉ extension.toList) :
    Path.IsName (segment ++ '.' :: extension.toList) where
  busy := by simp [Path.isIdle, List.append_eq_cons_iff, h.some]
  down := by
    intro up
    rcases List.append_eq_cons_iff.1 up with ⟨empty, -⟩ | ⟨rest, here, single⟩
    · exact h.some empty
    · cases rest with
      | nil => exact h.notHere here
      | cons c rest => simp at single
  single := by simp [h.separator_notMem, plain]

theorem isName_of_mem_fileParts (h : ∀ segment ∈ segments, IsSegment segment)
    (plain : '/' ∉ extension.toList) : ∀ part ∈ fileParts extension segments, Path.IsName part := by
  induction segments with
  | nil => exact nofun
  | cons segment rest ih =>
      intro part member
      cases rest with
      | nil =>
          cases List.mem_singleton.1 member
          exact (h segment List.mem_cons_self).isName_file plain
      | cons next rest =>
          rw [fileParts.eq_def] at member
          rcases List.mem_cons.1 member with rfl | later
          · exact (h _ List.mem_cons_self).isName
          · exact ih (fun segment member => h segment (List.mem_cons_of_mem _ member)) part later

theorem IsMadeOf.toString_file (h : IsMadeOf id segments) (extension : String) :
    id ++ "." ++ extension = String.ofList (['/'].intercalate (fileParts extension segments)) := by
  rw [intercalate_fileParts h.some, ← h.whole]
  ext1
  simp

theorem IsMadeOf.path_eq (h : IsMadeOf id segments) (root extension : String) :
    path root id extension =
      Path.join root (String.ofList (['/'].intercalate (fileParts extension segments))) := by
  rw [path, h.toString_file]

theorem IsMadeOf.isBelow_path (h : IsMadeOf id segments) (known : extension ∈ extensions) :
    Path.IsBelow root (path root id extension) := by
  rw [h.path_eq]
  exact Path.isBelow_join root (fileParts_ne_nil h.some)
    (isName_of_mem_fileParts h.isSegment (separator_notMem_of_mem_extensions known))

/-! ## Accesses -/

variable {σ : Type} {d : Disk σ} {disk disk' : σ} {file : String} {root? : Option String}

theorem eq_of_mem_paths_readingMetadata
    (mem : file ∈ (readingMetadata root id).run.paths d disk) : file = path root id "json" := by
  unfold readingMetadata at mem
  rcases Disk.Reading.mem_paths_bindT.1 mem with test | ⟨here, -, mem⟩
  · exact List.mem_singleton.1 test
  cases here with
  | false => cases mem
  | true =>
      rcases Disk.Reading.mem_paths_bindT.1 mem with text | ⟨text, -, mem⟩
      · exact List.mem_singleton.1 text
      cases text with
      | error fault => cases mem
      | ok text =>
          dsimp only at mem
          split at mem <;> cases mem

theorem mem_of_mem_paths_readingImage {image : String}
    (mem : file ∈ (readingImage root id image).run.paths d disk) :
    file = image ∨ file = path root id "json" := by
  unfold readingImage at mem
  rcases Disk.Reading.mem_paths_bindT.1 mem with picture | ⟨picture, -, mem⟩
  · exact .inl (List.mem_singleton.1 picture)
  cases picture with
  | error reason => cases mem
  | ok picture =>
      dsimp only at mem
      split at mem
      · cases mem
      rcases Disk.Reading.mem_paths_bindT.1 mem with metadata | ⟨metadata, -, mem⟩
      · exact .inr (eq_of_mem_paths_readingMetadata metadata)
      · cases mem

theorem exists_of_mem_paths_reading (mem : file ∈ (reading root? id).run.paths d disk) :
    checkId id = .ok () ∧
      ∃ root, root? = some root ∧ ∃ extension ∈ extensions, file = path root id extension := by
  unfold reading at mem
  rcases Disk.Reading.mem_paths_bindT.1 mem with check | ⟨⟨⟩, safe, mem⟩
  · cases check
  refine ⟨safe, ?_⟩
  cases root? with
  | none => cases mem
  | some root =>
      refine ⟨root, rfl, ?_⟩
      have isImage {file : String} (mem : file ∈ imageExtensions.map (path root id)) :
          ∃ extension ∈ extensions, file = path root id extension := by
        obtain ⟨extension, known, rfl⟩ := List.mem_map.1 mem
        exact ⟨extension, List.mem_append_left _ known, rfl⟩
      rcases Disk.Reading.mem_paths_bindT.1 mem with test | ⟨found, first, mem⟩
      · rw [Disk.Reading.paths_liftM] at test
        exact isImage (Disk.Reading.mem_of_mem_paths_firstFile? test)
      cases found with
      | none => cases mem
      | some image =>
          rw [Disk.Reading.run_liftM, Disk.Reading.run_firstFile?, Except.ok.injEq] at first
          rcases mem_of_mem_paths_readingImage mem with rfl | rfl
          · exact isImage (List.mem_of_find?_eq_some first)
          · exact ⟨"json", by decide, rfl⟩

end Template

namespace TemplateStore

/-- Whether loading an id looks at something on a disk. -/
def Touches (s : TemplateStore) (id : String) : Prop :=
  ∃ (σ : Type) (d : Disk σ) (disk : σ), (s.loading id).paths d disk ≠ []

/-- Whether loading an id looks at a path on some disk. -/
def Inspects (s : TemplateStore) (id path : String) : Prop :=
  ∃ (σ : Type) (d : Disk σ) (disk : σ), path ∈ (s.loading id).paths d disk

/-- Whether a path is that of a file of an id: the segments in the directory, the last with an extension. -/
def IsFileOf (s : TemplateStore) (id path : String) : Prop :=
  ∃ root segments, s.root = some root ∧ Template.IsMadeOf id segments ∧
    ∃ extension ∈ Template.extensions,
      path = Path.join root (String.ofList (['/'].intercalate (Template.fileParts extension segments)))

variable {σ : Type} {d : Disk σ} {disk disk' : σ} {s : TemplateStore} {id path : String}

theorem paths_loading_of_kept {t : Template} (kept : s.lookup id = some t) (d : Disk σ) (disk : σ) :
    (s.loading id).paths d disk = [] := by
  rw [loading, kept]
  rfl

theorem paths_loading_of_absent (absent : s.lookup id = none) (d : Disk σ) (disk : σ) :
    (s.loading id).paths d disk = (Template.reading s.root id).run.paths d disk := by
  rw [loading_eq_fetching, fetching_of_absent absent, Disk.Reading.paths_bind]
  cases (Template.reading s.root id).run.run d disk <;> exact List.append_nil _

theorem lookup_eq_of_mem (mem : path ∈ (s.loading id).paths d disk) : s.lookup id = none := by
  cases absent : s.lookup id with
  | none => rfl
  | some t =>
      rw [paths_loading_of_kept absent] at mem
      cases mem

theorem isFileOf_of_mem (mem : path ∈ (s.loading id).paths d disk) : s.IsFileOf id path := by
  rw [paths_loading_of_absent (lookup_eq_of_mem mem)] at mem
  obtain ⟨safe, root, known, extension, member, rfl⟩ := Template.exists_of_mem_paths_reading mem
  have made := Template.isMadeOf_of_checkId safe
  exact ⟨root, _, known, made, extension, member, made.path_eq root extension⟩

def uniform (here : Bool) : Disk Unit where
  isFile _ _ := here
  readText _ _ := .error .notText
  readPicture _ _ := .ok (.generate 1 1 fun _ _ => ⟨0, 0, 0, 0⟩)
  makePrivate _ _ := (.ok (), ())
  writeText _ _ _ := (.ok (), ())
  replace _ _ _ := (.ok (), ())

theorem paths_reading_nowhere (safe : Template.checkId id = .ok ()) (root : String) :
    (Template.reading (some root) id).run.paths (uniform false) () =
      Template.imageExtensions.map (Template.path root id) := by
  rw [Template.reading, safe]
  rfl

theorem mem_paths_reading_everywhere (safe : Template.checkId id = .ok ()) (root : String) :
    Template.path root id "json" ∈ (Template.reading (some root) id).run.paths (uniform true) () := by
  have looked : (Template.reading (some root) id).run.paths (uniform true) () =
      ["png", "png", "json", "json"].map (Template.path root id) := by
    rw [Template.reading, safe]
    rfl
  rw [looked]
  exact List.mem_map_of_mem (by decide)

theorem IsFileOf.inspects (h : s.IsFileOf id path) (absent : s.lookup id = none) :
    s.Inspects id path := by
  obtain ⟨root, segments, known, made, extension, member, rfl⟩ := h
  rw [← made.path_eq]
  rcases List.mem_append.1 member with image | metadata
  · refine ⟨Unit, uniform false, (), ?_⟩
    rw [paths_loading_of_absent absent, known, paths_reading_nowhere made.checkId_eq]
    exact List.mem_map_of_mem image
  · refine ⟨Unit, uniform true, (), ?_⟩
    cases List.mem_singleton.1 metadata
    rw [paths_loading_of_absent absent, known]
    exact mem_paths_reading_everywhere made.checkId_eq root

theorem IsFileOf.below (h : s.IsFileOf id path) : ∃ root, s.root = some root ∧ Path.IsBelow root path := by
  obtain ⟨root, segments, known, made, extension, member, rfl⟩ := h
  rw [← made.path_eq]
  exact ⟨root, known, made.isBelow_path member⟩

/--
A load cannot leave the directory of the store. The ids that are accepted are those that are made of
segments, and for no other is anything looked at. If an id is not kept, the load inspects its files and only
these, which lie below the directory, and its result depends on nothing else.
-/
theorem load_stays_below (s : TemplateStore) (id : String) :
    (Template.checkId id = .ok () ↔ ∃ segments, Template.IsMadeOf id segments) ∧
      (s.Touches id → ∃ segments, Template.IsMadeOf id segments) ∧
      (∀ (σ : Type) (d : Disk σ) (disk disk' : σ),
        (∀ path, s.IsFileOf id path → d.SameAt path disk disk') →
          s.load d disk id = s.load d disk' id) ∧
      (∀ path, s.Inspects id path ↔ s.lookup id = none ∧ s.IsFileOf id path) ∧
      ∀ path, s.IsFileOf id path → ∃ root, s.root = some root ∧ Path.IsBelow root path := by
  refine ⟨Template.checkId_iff, fun ⟨σ, d, disk, looked⟩ => ?_, fun σ d disk disk' same => ?_,
    fun path => ⟨fun ⟨σ, d, disk, mem⟩ => ?_, fun ⟨absent, file⟩ => file.inspects absent⟩,
    fun path => IsFileOf.below⟩
  · obtain ⟨path, mem⟩ := List.exists_mem_of_ne_nil _ looked
    obtain ⟨root, segments, -, made, -⟩ := isFileOf_of_mem mem
    exact ⟨segments, made⟩
  · exact Disk.Reading.run_congr fun path mem => same path (isFileOf_of_mem mem)
  · exact ⟨lookup_eq_of_mem mem, isFileOf_of_mem mem⟩

theorem load_stays_below_button :
    let s : TemplateStore := { root := "ui" }
    (s.loading "forms/ok").paths (uniform false) () =
        ["ui/forms/ok.png", "ui/forms/ok.jpg", "ui/forms/ok.jpeg"] ∧
      (∃ segments, Template.IsMadeOf "forms/ok" segments) ∧ s.IsFileOf "forms/ok" "ui/forms/ok.png" ∧
      ∃ root, s.root = some root ∧ Path.IsBelow root "ui/forms/ok.png" := by
  intro s
  have looked : (s.loading "forms/ok").paths (uniform false) () =
      ["ui/forms/ok.png", "ui/forms/ok.jpg", "ui/forms/ok.jpeg"] := by decide +kernel
  obtain ⟨-, touches, -, inspects, below⟩ := load_stays_below s "forms/ok"
  have file : s.IsFileOf "forms/ok" "ui/forms/ok.png" :=
    ((inspects _).1 ⟨Unit, uniform false, (), by rw [looked]; exact List.mem_cons_self⟩).2
  exact ⟨looked, touches ⟨Unit, uniform false, (), by rw [looked]; exact List.cons_ne_nil _ _⟩, file,
    below _ file⟩

end TemplateStore

end ScreenScript
