import Mathlib
import ScreenScript.Disk.Change

namespace ScreenScript

/--
How a disk replaces the text of a file by that of a draft, in the states in which it can be: nothing
but a replacement that succeeds changes what is read of the file.
-/
structure Disk.Replaces (d : Disk σ) (Fit : σ → Prop) (path draft : String) : Prop where
  makePrivate_fit : ∀ {directory disk}, Path.parent? path = some directory →
    directory.isEmpty = false → Fit disk → Fit (d.makePrivate directory disk).2
  makePrivate_keeps : ∀ {directory disk}, Path.parent? path = some directory →
    directory.isEmpty = false → Fit disk →
    d.readText path (d.makePrivate directory disk).2 = d.readText path disk
  writeText_fit : ∀ {text disk}, Fit disk → Fit (d.writeText draft text disk).2
  writeText_keeps : ∀ {text disk}, Fit disk →
    d.readText path (d.writeText draft text disk).2 = d.readText path disk
  writeText_reads : ∀ {text disk}, Fit disk → (d.writeText draft text disk).1 = .ok () →
    d.readText draft (d.writeText draft text disk).2 = .ok text
  replace_fit : ∀ {disk}, Fit disk → Fit (d.replace draft path disk).2
  replace_keeps : ∀ {disk}, Fit disk → (d.replace draft path disk).1 ≠ .ok () →
    d.readText path (d.replace draft path disk).2 = d.readText path disk
  replace_reads : ∀ {disk}, Fit disk → (d.replace draft path disk).1 = .ok () →
    d.readText path (d.replace draft path disk).2 = d.readText draft disk

/-- A disk on which a replacement needs the draft and takes it away. -/
structure Disk.Drafts (d : Disk σ) (Fit : σ → Prop) (path draft : String) : Prop
    extends d.Replaces Fit path draft where
  makePrivate_keepsDraft : ∀ {directory disk}, Path.parent? path = some directory →
    directory.isEmpty = false → Fit disk →
    d.readText draft (d.makePrivate directory disk).2 = d.readText draft disk
  replace_needsDraft : ∀ {disk}, Fit disk → (d.replace draft path disk).1 = .ok () →
    d.readText draft disk ≠ .error .notFound
  replace_takesDraft : ∀ {disk}, Fit disk → (d.replace draft path disk).1 = .ok () →
    d.readText draft (d.replace draft path disk).2 = .error .notFound

/-- A disk that also does all this whenever it is asked to, in those states. -/
structure Disk.Obliging (d : Disk σ) (Fit : σ → Prop) (path draft : String) : Prop
    extends d.Replaces Fit path draft where
  makePrivate_ok : ∀ {directory disk}, Path.parent? path = some directory →
    directory.isEmpty = false → Fit disk → (d.makePrivate directory disk).1 = .ok ()
  writeText_ok : ∀ {text disk}, Fit disk → (d.writeText draft text disk).1 = .ok ()
  replace_ok : ∀ {text disk}, Fit disk → d.readText draft disk = .ok text →
    (d.replace draft path disk).1 = .ok ()

namespace FileTree

structure Plain (name : String) : Prop where
  check : FileTree.check name = .ok ()
  parts : Path.parts name = [name]
  relative : Path.isAbsolute name = false
  unclosed : name.endsWith "/" = false
  named : (name.isEmpty || name = "." || name = "..") = false
  short : name.utf8ByteSize ≤ longestName

structure AtRoot (t : FileTree) : Prop where
  home : t.home = []
  root : t.root.isDirectory

namespace Node

theorem child?_put {root : Node} (directory : root.isDirectory) (name other : String) (node : Node) :
    (root.put [name] node).child? other = if other = name then some node else root.child? other := by
  cases root with
  | directory permissions children => exact NameMap.lookup_insertEntry name other _ children
  | text content => cases directory
  | picture format content => cases directory
  | other => cases directory

theorem child?_erase {root : Node} (directory : root.isDirectory) (name other : String) :
    (root.erase [name]).child? other = if other = name then none else root.child? other := by
  cases root with
  | directory permissions children => exact NameMap.lookup_filter_ne name other children
  | text content => cases directory
  | picture format content => cases directory
  | other => cases directory

theorem isDirectory_put {root : Node} (directory : root.isDirectory) (name : String) (node : Node) :
    (root.put [name] node).isDirectory := by
  cases root with
  | directory permissions children => rfl
  | text content => cases directory
  | picture format content => cases directory
  | other => cases directory

theorem isDirectory_erase {root : Node} (directory : root.isDirectory) (name : String) :
    (root.erase [name]).isDirectory := by
  cases root with
  | directory permissions children => rfl
  | text content => cases directory
  | picture format content => cases directory
  | other => cases directory

end Node

variable {t : FileTree} {name : String}

theorem origin_plain (atRoot : t.AtRoot) (plain : Plain name) : t.origin name = { node := t.root } := by
  rw [origin, plain.relative, atRoot.home]
  rfl

theorem find_plain (atRoot : t.AtRoot) (plain : Plain name) :
    t.find name = match t.root.child? name with
      | some node => .ok node
      | none => .error .notFound := by
  have idle : (name.isEmpty || name = ".") = false := (Bool.or_eq_false_iff.1 plain.named).1
  have up : ¬ name = ".." := of_decide_eq_false (Bool.or_eq_false_iff.1 plain.named).2
  have directory := atRoot.root
  have walked : walk { node := t.root } [name] = match t.root.child? name with
      | some node => .ok ⟨node, [(name, t.root)]⟩
      | none => .error .notFound := by
    cases root : t.root with
    | directory permissions children =>
        cases found : children.lookup name with
        | none =>
            simp only [walk, idle, Bool.false_eq_true, if_false, if_neg up,
              if_neg (Nat.not_lt.2 plain.short), Node.child?, found]
        | some node =>
            simp only [walk, idle, Bool.false_eq_true, if_false, if_neg up,
              if_neg (Nat.not_lt.2 plain.short), Node.child?, found]
    | text content => simp [root, Node.isDirectory] at directory
    | picture format content => simp [root, Node.isDirectory] at directory
    | other => simp [root, Node.isDirectory] at directory
  rw [find, spot, plain.check, origin_plain atRoot plain, plain.parts]
  simp only [bind, Except.bind, walked]
  cases t.root.child? name <;> rfl

theorem entrance_plain (atRoot : t.AtRoot) (plain : Plain name) :
    t.entrance name = .ok ⟨{ node := t.root }, name, false⟩ := by
  have directory := atRoot.root
  have nonempty : name.isEmpty = false :=
    (Bool.or_eq_false_iff.1 (Bool.or_eq_false_iff.1 plain.named).1).1
  have walked : walk { node := t.root } [""] = .ok { node := t.root } := by
    cases root : t.root with
    | directory permissions children => simp [walk]
    | text content => simp [root, Node.isDirectory] at directory
    | picture format content => simp [root, Node.isDirectory] at directory
    | other => simp [root, Node.isDirectory] at directory
  rw [entrance, plain.check, plain.parts, origin_plain atRoot plain, plain.unclosed]
  simp only [bind, Except.bind, List.filter_cons, nonempty, Bool.not_false, if_true,
    List.filter_nil, List.dropLast_singleton, List.nil_append, walked]
  rfl

theorem written_plain (atRoot : t.AtRoot) (plain : Plain name) (file : Node) :
    t.written name file =
      if (t.root.child? name).any Node.isDirectory then .error .isDirectory
      else .ok (t.put [name] file) := by
  have found : (Entrance.mk { node := t.root } name false).node? = .ok (t.root.child? name) :=
    if_neg (Nat.not_lt.2 plain.short)
  rw [written, entrance_plain atRoot plain]
  simp only [bind, Except.bind, Entrance.isNamed, plain.named, Bool.not_false, Bool.not_true,
    Bool.or_self, Bool.false_eq_true, if_false, found]
  cases t.root.child? name with
  | none => rfl
  | some node => cases node <;> rfl

theorem replaced_plain (atRoot : t.AtRoot) {source target : String} (plainSource : Plain source)
    (plainTarget : Plain target) :
    t.replaced source target = match t.root.child? source with
      | none => .error .notFound
      | some file =>
        if file.isDirectory || (t.root.child? target).any Node.isDirectory then .error .isDirectory
        else .ok { t with root := (t.root.erase [source]).put [target] file } := by
  have departure : (Entrance.mk { node := t.root } source false).node? =
      .ok (t.root.child? source) := if_neg (Nat.not_lt.2 plainSource.short)
  have arrival : (Entrance.mk { node := t.root } target false).node? =
      .ok (t.root.child? target) := if_neg (Nat.not_lt.2 plainTarget.short)
  rw [replaced, entrance_plain atRoot plainSource, entrance_plain atRoot plainTarget]
  simp only [bind, Except.bind, Entrance.isNamed, plainSource.named, plainTarget.named,
    Bool.not_false, Bool.and_self, if_true, departure, arrival]
  cases t.root.child? source with
  | none => rfl
  | some file =>
      dsimp only
      cases file.isDirectory with
      | true => rfl
      | false =>
          cases (t.root.child? target).any Node.isDirectory <;> rfl

theorem readText_plain (atRoot : t.AtRoot) (plain : Plain name) :
    readText name t = match t.root.child? name with
      | none => .error .notFound
      | some (.text content) => .ok content
      | some (.directory _ _) => .error .isDirectory
      | some _ => .error .notText := by
  rw [readText, find_plain atRoot plain]
  cases t.root.child? name with
  | none => rfl
  | some node => cases node <;> rfl

theorem readText_congr {t' : FileTree} (atRoot : t.AtRoot) (atRoot' : t'.AtRoot) (plain : Plain name)
    (same : t'.root.child? name = t.root.child? name) : readText name t' = readText name t := by
  rw [readText_plain atRoot' plain, readText_plain atRoot plain, same]

theorem AtRoot.put (atRoot : t.AtRoot) (name : String) (node : Node) : (t.put [name] node).AtRoot :=
  ⟨atRoot.home, Node.isDirectory_put atRoot.root name node⟩

theorem AtRoot.replaced (atRoot : t.AtRoot) (source target : String) (node : Node) :
    ({ t with root := (t.root.erase [source]).put [target] node } : FileTree).AtRoot :=
  ⟨atRoot.home, Node.isDirectory_put (Node.isDirectory_erase atRoot.root source) target node⟩

theorem writeText_plain (atRoot : t.AtRoot) (plain : Plain name) (text : String) :
    disk.writeText name text t =
      if (t.root.child? name).any Node.isDirectory then (.error .isDirectory, t)
      else (.ok (), t.put [name] (.text text)) := by
  simp only [disk, atOnce, written_plain atRoot plain]
  cases (t.root.child? name).any Node.isDirectory <;> rfl

theorem replace_plain (atRoot : t.AtRoot) {source target : String} (plainSource : Plain source)
    (plainTarget : Plain target) :
    disk.replace source target t = match t.root.child? source with
      | none => (.error .notFound, t)
      | some file =>
        if file.isDirectory || (t.root.child? target).any Node.isDirectory then
          (.error .isDirectory, t)
        else (.ok (), { t with root := (t.root.erase [source]).put [target] file }) := by
  simp only [disk, atOnce, replaced_plain atRoot plainSource plainTarget]
  cases t.root.child? source with
  | none => rfl
  | some file =>
      dsimp only
      cases file.isDirectory || (t.root.child? target).any Node.isDirectory <;> rfl

theorem disk_replaces {path draft : String} (plainPath : Plain path) (plainDraft : Plain draft)
    (ne : path ≠ draft) (parent : Path.parent? path = some "") :
    disk.Replaces AtRoot path draft where
  makePrivate_fit above named := by
    cases parent.symm.trans above
    cases named
  makePrivate_keeps above named := by
    cases parent.symm.trans above
    cases named
  writeText_fit {text t} atRoot := by
    rw [writeText_plain atRoot plainDraft]
    split
    · exact atRoot
    · exact atRoot.put draft _
  writeText_keeps {text t} atRoot := by
    rw [writeText_plain atRoot plainDraft]
    split
    · rfl
    · refine readText_congr atRoot (atRoot.put draft _) plainPath ?_
      exact (Node.child?_put atRoot.root draft path _).trans (if_neg ne)
  writeText_reads {text t} atRoot := by
    rw [writeText_plain atRoot plainDraft]
    split
    · rintro ⟨⟩
    · intro _
      have found : (t.put [draft] (.text text)).root.child? draft = some (.text text) :=
        (Node.child?_put atRoot.root draft draft _).trans (if_pos rfl)
      exact (readText_plain (atRoot.put draft _) plainDraft).trans (by rw [found])
  replace_fit {t} atRoot := by
    rw [replace_plain atRoot plainDraft plainPath]
    split
    · exact atRoot
    split
    · exact atRoot
    · exact atRoot.replaced draft path _
  replace_keeps {t} atRoot := by
    rw [replace_plain atRoot plainDraft plainPath]
    split
    · exact fun _ => rfl
    split
    · exact fun _ => rfl
    · exact fun failed => absurd rfl failed
  replace_reads {t} atRoot := by
    rw [replace_plain atRoot plainDraft plainPath]
    split
    · rintro ⟨⟩
    · rename_i file found
      split
      · rintro ⟨⟩
      · intro _
        have moved : ((t.root.erase [draft]).put [path] file).child? path = some file :=
          (Node.child?_put (Node.isDirectory_erase atRoot.root draft) path path file).trans
            (if_pos rfl)
        refine (readText_plain (atRoot.replaced draft path file) plainPath).trans ?_
        refine Eq.trans ?_ (readText_plain atRoot plainDraft).symm
        rw [moved, found]

theorem disk_drafts {path draft : String} (plainPath : Plain path) (plainDraft : Plain draft)
    (ne : path ≠ draft) (parent : Path.parent? path = some "") :
    disk.Drafts AtRoot path draft where
  toReplaces := disk_replaces plainPath plainDraft ne parent
  makePrivate_keepsDraft above named := by
    cases parent.symm.trans above
    cases named
  replace_needsDraft {t} atRoot := by
    have read : disk.readText draft t = _ := readText_plain atRoot plainDraft
    rw [replace_plain atRoot plainDraft plainPath, read]
    cases t.root.child? draft with
    | none => nofun
    | some file => cases file <;> nofun
  replace_takesDraft {t} atRoot := by
    rw [replace_plain atRoot plainDraft plainPath]
    split
    · rintro ⟨⟩
    · rename_i file found
      split
      · rintro ⟨⟩
      · intro _
        have gone : ((t.root.erase [draft]).put [path] file).child? draft = none := by
          rw [Node.child?_put (Node.isDirectory_erase atRoot.root draft), if_neg ne.symm,
            Node.child?_erase atRoot.root, if_pos rfl]
        refine (readText_plain (atRoot.replaced draft path file) plainDraft).trans ?_
        rw [gone]

end FileTree

end ScreenScript
