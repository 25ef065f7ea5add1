import TypedLinks.Disk.Canonical

/-!
# The shape of a file system

What is written into a file does not move anything: the files, folders and links stay where they
are. File systems that differ in the bytes of files only have the same shape, and then every path
leads to the same location in both, has the same canonical path, and the same names are in a folder.
-/

namespace TypedLinks

/-- An entry without the bytes of a file. -/
def Entry.shape : Entry → Entry
  | .file _ => .file []
  | e => e

namespace Entry

theorem shape_eq_folder {e : Entry} : e.shape = .folder ↔ e = .folder := by
  cases e <;> simp [shape]

end Entry

namespace FileSystem

/-- File systems in which the same stands at every location, apart from the bytes of files. -/
structure Alike (fs fs' : FileSystem) : Prop where
  shape : ∀ l, (fs.entry? l).map Entry.shape = (fs'.entry? l).map Entry.shape

namespace Alike

variable {fs fs' : FileSystem} {folder : DiskLocation} {p : Path}

theorem symm (h : Alike fs fs') : Alike fs' fs := ⟨fun l => (h.shape l).symm⟩

/-! ## Entries -/

theorem entry?_eq_none (h : Alike fs fs') {l : DiskLocation} (hl : fs.entry? l = none) :
    fs'.entry? l = none := by
  have hshape := h.shape l
  rw [hl, Option.map_none] at hshape
  exact Option.map_eq_none_iff.1 hshape.symm

theorem entry?_eq_some (h : Alike fs fs') {l : DiskLocation} {e : Entry}
    (hl : fs.entry? l = some e) : ∃ e', fs'.entry? l = some e' ∧ e'.shape = e.shape := by
  have hshape := h.shape l
  rw [hl, Option.map_some] at hshape
  exact Option.map_eq_some_iff.1 hshape.symm

theorem entry?_eq_folder (h : Alike fs fs') {l : DiskLocation}
    (hl : fs.entry? l = some .folder) : fs'.entry? l = some .folder := by
  obtain ⟨e, he, hshape⟩ := h.entry?_eq_some hl
  rw [he, Entry.shape_eq_folder.1 hshape]

theorem entry?_eq_folder_iff (h : Alike fs fs') {l : DiskLocation} :
    fs.entry? l = some .folder ↔ fs'.entry? l = some .folder :=
  ⟨h.entry?_eq_folder, h.symm.entry?_eq_folder⟩

/-! ## Walks -/

theorem member (h : Alike fs fs') (folder : DiskLocation) (name : Text) :
    (fs.member folder name).map Entry.shape = (fs'.member folder name).map Entry.shape := by
  unfold FileSystem.member
  simp only [ne_eq, h.entry?_eq_folder_iff]
  split
  · rfl
  · split
    · rfl
    · have hshape := h.shape (folder ++ [name.onDisk])
      cases he : fs.entry? (folder ++ [name.onDisk]) with
      | none => rw [h.entry?_eq_none he]
      | some e =>
        obtain ⟨e', he', hee'⟩ := h.entry?_eq_some he
        simp only [he', Except.map, hee']

theorem scan (h : Alike fs fs') (l : DiskLocation) (names : List Text) :
    fs.scan l names = fs'.scan l names := by
  induction names generalizing l with
  | nil => rfl
  | cons name names ih =>
    have hmember := h.member l name
    rw [FileSystem.scan, FileSystem.scan]
    simp only [ne_eq, h.entry?_eq_folder_iff, ih]
    cases hm : fs.member l name with
    | error why =>
      rw [hm] at hmember
      cases hm' : fs'.member l name with
      | error why' =>
        rw [hm'] at hmember
        cases hmember
        rfl
      | ok e' =>
        rw [hm'] at hmember
        contradiction
    | ok e =>
      rw [hm] at hmember
      cases hm' : fs'.member l name with
      | error why' =>
        rw [hm'] at hmember
        contradiction
      | ok e' =>
        rw [hm'] at hmember
        have hee' : e.shape = e'.shape := Except.ok.inj hmember
        cases e <;> cases e' <;> cases hee' <;> rfl

theorem follow (h : Alike fs fs') (links : Nat) (l : DiskLocation) (names : List Text) :
    fs.follow links l names = fs'.follow links l names := by
  induction links generalizing l names with
  | zero =>
    unfold FileSystem.follow
    rw [h.scan]
    rcases fs'.scan l names with why | (l | ⟨folder, target, rest⟩) <;> rfl
  | succ links ih =>
    unfold FileSystem.follow
    rw [h.scan]
    rcases fs'.scan l names with why | (l | ⟨folder, target, rest⟩)
    · rfl
    · rfl
    · exact ih _ _

theorem locate (h : Alike fs fs') (folder : DiskLocation) (p : Path) :
    fs.locate folder p = fs'.locate folder p := by
  simp only [FileSystem.locate, h.follow]

/-! ## Tests -/

theorem target? (h : Alike fs fs') (folder : DiskLocation) (p : Path) :
    (fs.target? folder p).map (·.map Entry.shape) =
      (fs'.target? folder p).map (·.map Entry.shape) := by
  unfold FileSystem.target?
  rw [h.locate]
  cases fs'.locate folder p with
  | error fault => cases fault <;> rfl
  | ok l => exact congrArg Except.ok (h.shape l)

theorem isFile (h : Alike fs fs') (folder : DiskLocation) (p : Path) :
    fs.isFile folder p = fs'.isFile folder p := by
  have hshape (fs : FileSystem) : fs.isFile folder p =
      ((fs.target? folder p).map (·.map Entry.shape)).map fun e => decide (e = some (.file [])) := by
    unfold FileSystem.isFile
    cases fs.target? folder p with
    | error fault => rfl
    | ok e => rcases e with _ | _ | _ | _ <;> rfl
  rw [hshape fs, hshape fs', h.target?]

theorem isFolder (h : Alike fs fs') (folder : DiskLocation) (p : Path) :
    fs.isFolder folder p = fs'.isFolder folder p := by
  have hshape (fs : FileSystem) : fs.isFolder folder p =
      ((fs.target? folder p).map (·.map Entry.shape)).map fun e => decide (e = some .folder) := by
    unfold FileSystem.isFolder
    cases fs.target? folder p with
    | error fault => rfl
    | ok e => rcases e with _ | _ | _ | _ <;> rfl
  rw [hshape fs, hshape fs', h.target?]

/-! ## Canonical paths -/

theorem probe (h : Alike fs fs') (folder : DiskLocation) (p : Path) :
    (fs.probe folder p).map Entry.shape = (fs'.probe folder p).map Entry.shape := by
  unfold FileSystem.probe
  cases p.text.unusable? with
  | some why => rfl
  | none =>
    simp only [h.follow]
    by_cases hlong : maxPath < p.text.byteLength
    · simp only [hlong, if_true]
      rfl
    · simp only [hlong, if_false]
      cases hl : fs'.follow maxLinks (startOf folder p.isAbsolute) p.folder.names with
      | error why => rfl
      | ok l =>
        have hshape (entry : Except Refusal Entry) :
            (entry.mapError (DiskFault.refused · p.text)).map Entry.shape =
              (entry.map Entry.shape).mapError (DiskFault.refused · p.text) := by
          cases entry <;> rfl
        exact (hshape _).trans ((congrArg _ (h.member l p.name)).trans (hshape _).symm)

theorem advance (h : Alike fs fs') (folder : DiskLocation) (strict : Bool)
    (visited : Visited) (p : Path) (pending : List Pending) :
    fs.advance folder strict visited p pending = fs'.advance folder strict visited p pending := by
  induction pending generalizing visited p with
  | nil => rfl
  | cons next rest ih =>
    cases next with
    | resolved link => exact ih _ _
    | name n =>
      have hprobe := h.probe folder (p.child n)
      rw [FileSystem.advance, FileSystem.advance]
      simp only [ih]
      cases hp : fs.probe folder (p.child n) with
      | error fault =>
        rw [hp] at hprobe
        cases hp' : fs'.probe folder (p.child n) with
        | error fault' =>
          rw [hp'] at hprobe
          cases hprobe
          rfl
        | ok e' =>
          rw [hp'] at hprobe
          contradiction
      | ok e =>
        rw [hp] at hprobe
        cases hp' : fs'.probe folder (p.child n) with
        | error fault' =>
          rw [hp'] at hprobe
          contradiction
        | ok e' =>
          rw [hp'] at hprobe
          have hee' : e.shape = e'.shape := Except.ok.inj hprobe
          cases e <;> cases e' <;> cases hee' <;> rfl

theorem cycleFault (h : Alike fs fs') (folder : DiskLocation) (link : Path) :
    fs.cycleFault folder link = fs'.cycleFault folder link := by
  simp only [FileSystem.cycleFault, h.locate]

theorem enter (h : Alike fs fs') (folder : DiskLocation) (strict : Bool) (links : Nat)
    (visited : Visited) (p : Path) (pending : List Pending) :
    fs.enter folder strict links visited p pending =
      fs'.enter folder strict links visited p pending := by
  induction links generalizing visited p pending with
  | zero =>
    unfold FileSystem.enter
    simp only [h.advance, h.cycleFault]
    rcases fs'.advance folder strict visited p pending with fault | (p | _ | _) <;> rfl
  | succ links ih =>
    unfold FileSystem.enter
    simp only [h.advance, h.cycleFault]
    rcases fs'.advance folder strict visited p pending with fault | (p | _ | _)
    · rfl
    · rfl
    · exact ih _ _ _
    · rfl

end Alike

/-- File systems with the same entries, apart from the bytes of files. -/
structure SameShape (fs fs' : FileSystem) : Prop extends Alike fs fs' where
  locations : fs.entries.map (·.1) = fs'.entries.map (·.1)

namespace SameShape

variable {fs fs' fs'' : FileSystem}

theorem refl (fs : FileSystem) : SameShape fs fs := ⟨⟨fun _ => rfl⟩, rfl⟩

theorem symm (h : SameShape fs fs') : SameShape fs' fs := ⟨h.toAlike.symm, h.locations.symm⟩

theorem trans (h : SameShape fs fs') (h' : SameShape fs' fs'') : SameShape fs fs'' :=
  ⟨⟨fun l => (h.shape l).trans (h'.shape l)⟩, h.locations.trans h'.locations⟩

theorem namesIn (h : SameShape fs fs') (l : DiskLocation) : fs.namesIn l = fs'.namesIn l := by
  have hnames (entries : List (DiskLocation × Entry)) :
      (FileSystem.mk entries).namesIn l =
        (entries.map (·.1)).filterMap fun l' => if l'.dropLast = l then l'.getLast? else none := by
    rw [List.filterMap_map]
    rfl
  exact (hnames fs.entries).trans ((congrArg _ h.locations).trans (hnames fs'.entries).symm)

theorem names (h : SameShape fs fs') (folder : DiskLocation) (p : Path) :
    fs.names folder p = fs'.names folder p := by
  simp only [FileSystem.names, h.locate, h.entry?_eq_folder_iff, h.namesIn]

theorem resolveFrom (h : SameShape fs fs') (strict : Bool) (folder : DiskLocation) (p : Path) :
    fs.resolveFrom strict folder p = fs'.resolveFrom strict folder p := by
  have hlength : fs.entries.length = fs'.entries.length := by
    simpa using congrArg List.length h.locations
  simp only [FileSystem.resolveFrom, maxEntered, h.enter, hlength]

theorem withoutLinks (h : SameShape fs fs') (folder : DiskLocation) (p : Path) :
    fs.withoutLinks folder p = fs'.withoutLinks folder p := by
  simp only [FileSystem.withoutLinks, h.resolveFrom, h.locate]

end SameShape

/-! ## Writing -/

section Write

variable {fs fs' : FileSystem} {folder : DiskLocation} {p q : Path} {l l' : DiskLocation}
  {bytes : List UInt8}

theorem lookup_map_replace (entries : List (DiskLocation × Entry)) (e : Entry) :
    (entries.map fun (k, e') => (k, if k = l then e else e')).lookup l' =
      (entries.lookup l').map fun e' => if l' = l then e else e' := by
  induction entries with
  | nil => rfl
  | cons x xs ih =>
    obtain ⟨k, e'⟩ := x
    rw [List.map_cons, List.lookup_cons, List.lookup_cons, ih]
    cases hk : l' == k with
    | false => rfl
    | true => rw [eq_of_beq hk]; rfl

/-- Putting an entry in the place of a file changes what stands there, and nothing else. -/
theorem entry?_put (h : fs.entry? l = some (.file bytes)) (e : Entry) (l' : DiskLocation) :
    FileSystem.entry? (fs.put l e) l' = if l' = l then some e else fs.entry? l' := by
  have hne : l ≠ [] := by
    rintro rfl
    cases h
  have hlookup : fs.entries.lookup l = some (.file bytes) := by
    unfold entry? at h
    rwa [if_neg hne] at h
  unfold put entry?
  rw [hlookup, Option.isSome_some, if_pos rfl, lookup_map_replace]
  by_cases hl' : l' = l
  · rw [if_pos hl', if_neg (hl' ▸ hne), hl', hlookup, Option.map_some, if_pos rfl]
  · simp only [if_neg hl', Option.map_id']

/-- Putting a file in the place of a file keeps the shape. -/
theorem sameShape_put (h : fs.entry? l = some (.file bytes)) (bytes' : List UInt8) :
    SameShape fs (fs.put l (.file bytes')) := by
  refine ⟨⟨fun l' => ?_⟩, ?_⟩
  · rw [entry?_put h]
    split
    · rename_i heq
      rw [heq, h]
      rfl
    · rfl
  · unfold put
    split
    · rw [List.map_map]
      rfl
    · rename_i hnone
      unfold entry? at h
      split at h
      · cases h
      · rw [h] at hnone
        exact absurd rfl hnone

theorem write_eq_ok (h : fs.write folder p bytes = .ok fs') :
    ∃ l old, fs.locate folder p = .ok l ∧ fs.entry? l = some (.file old) ∧
      fs' = fs.put l (.file bytes) := by
  unfold write at h
  cases hl : fs.locate folder p with
  | error fault =>
    rw [hl] at h
    contradiction
  | ok l =>
    simp only [hl, bind, Except.bind] at h
    split at h
    · rename_i old he
      exact ⟨l, old, rfl, he, (Except.ok.inj h).symm⟩
    · contradiction
    · contradiction

theorem read_eq_ok_iff : fs.read folder p = .ok bytes ↔
    ∃ l, fs.locate folder p = .ok l ∧ fs.entry? l = some (.file bytes) := by
  unfold read
  cases hl : fs.locate folder p with
  | error fault => simp [bind, Except.bind]
  | ok l =>
    simp only [bind, Except.bind, Except.ok.injEq, exists_eq_left']
    split
    · rename_i he
      simp [he, pure, Except.pure]
    · rename_i he
      simp [he]
    · rename_i hfile hfolder
      constructor
      · intro h
        contradiction
      · intro h
        exact absurd h (hfile bytes)

/-- A file that can be read can be written. -/
theorem write_of_read {old : List UInt8} (h : fs.read folder p = .ok old) (bytes : List UInt8) :
    ∃ l, fs.locate folder p = .ok l ∧ fs.entry? l = some (.file old) ∧
      fs.write folder p bytes = .ok (fs.put l (.file bytes)) := by
  obtain ⟨l, hl, he⟩ := read_eq_ok_iff.1 h
  refine ⟨l, hl, he, ?_⟩
  simp only [write, hl, he, bind, Except.bind]
  rfl

theorem sameShape_write (h : fs.write folder p bytes = .ok fs') : SameShape fs fs' := by
  obtain ⟨l, old, -, he, rfl⟩ := write_eq_ok h
  exact sameShape_put he bytes

/-- What was written is read. -/
theorem read_write (h : fs.write folder p bytes = .ok fs') : fs'.read folder p = .ok bytes := by
  obtain ⟨l, old, hl, he, rfl⟩ := write_eq_ok h
  refine read_eq_ok_iff.2 ⟨l, ?_, by rw [entry?_put he, if_pos rfl]⟩
  rw [← (sameShape_put he bytes).locate, hl]

/-- A path that leads elsewhere is read as before. -/
theorem read_write_of_ne (h : fs.write folder p bytes = .ok fs')
    (hne : ∀ l, fs.locate folder p = .ok l → fs.locate folder q ≠ .ok l) :
    fs'.read folder q = fs.read folder q := by
  obtain ⟨l, old, hl, he, rfl⟩ := write_eq_ok h
  unfold read
  rw [← (sameShape_put he bytes).locate]
  cases hq : fs.locate folder q with
  | error fault => rfl
  | ok l' =>
    have hl' : l' ≠ l := fun heq => hne l hl (heq ▸ hq)
    simp only [bind, Except.bind, entry?_put he, if_neg hl']

end Write

/-! ## One path for each file -/

/-- Whether two paths lead to the same file. -/
def SameFile (fs : FileSystem) (folder : DiskLocation) (p q : Path) : Prop :=
  ∃ l, fs.locate folder p = .ok l ∧ fs.locate folder q = .ok l

theorem SameShape.sameFile {fs fs' : FileSystem} (h : fs.SameShape fs') {folder : DiskLocation}
    {p q : Path} : fs.SameFile folder p q ↔ fs'.SameFile folder p q := by
  unfold SameFile
  rw [h.locate, h.locate]

/-- What is read under one path is read under another of the same file. -/
theorem SameFile.read_eq_ok {fs : FileSystem} {folder : DiskLocation} {p q : Path}
    {bytes : List UInt8} (h : fs.SameFile folder p q) (hq : fs.read folder q = .ok bytes) :
    fs.read folder p = .ok bytes := by
  obtain ⟨l, hl, hl'⟩ := h
  obtain ⟨k, hk, hentry⟩ := read_eq_ok_iff.1 hq
  obtain rfl := Except.ok.inj (hl'.symm.trans hk)
  exact read_eq_ok_iff.2 ⟨l, hl, hentry⟩

theorem not_sameFile {fs : FileSystem} {folder k l : DiskLocation} {p q : Path}
    (hp : fs.locate folder p = .ok k) (hq : fs.locate folder q = .ok l) (hne : k ≠ l) :
    ¬fs.SameFile folder p q := by
  rintro ⟨j, hj, hj'⟩
  exact hne ((Except.ok.inj (hp.symm.trans hj)).trans (Except.ok.inj (hj'.symm.trans hq)))

/-- Whether no file is reached under two of some paths. Canonical paths are of this kind, as long as
they spell the names on the disk alike: a name can hold a character, or a code point for each of the
bytes of that character. -/
def NamesOnce (fs : FileSystem) (folder : DiskLocation) (named : Path → Prop) : Prop :=
  ∀ p q l, named p → named q → fs.locate folder p = .ok l → fs.locate folder q = .ok l → p = q

/-- Paths that lie where their names say are no two paths of one file. -/
theorem namesOnce_of_located {fs : FileSystem} {folder : DiskLocation} {named : Path → Prop}
    (h : ∀ p, named p → ∃ l, p = .absolute l ∧ fs.locate folder p = .ok l) :
    fs.NamesOnce folder named := by
  intro p q l hp hq hpl hql
  obtain ⟨k, rfl, hk⟩ := h p hp
  obtain ⟨j, rfl, hj⟩ := h q hq
  rw [Except.ok.inj (hk.symm.trans hpl), Except.ok.inj (hj.symm.trans hql)]

/-- A file is read as before where its entry is the same. -/
theorem SameShape.read_eq {fs fs' : FileSystem} (h : fs.SameShape fs') {folder : DiskLocation}
    {p : Path} (hentry : ∀ l, fs.locate folder p = .ok l → fs'.entry? l = fs.entry? l) :
    fs'.read folder p = fs.read folder p := by
  unfold read
  rw [← h.locate]
  cases hl : fs.locate folder p with
  | error fault => rfl
  | ok l => simp only [bind, Except.bind, hentry l hl]

end FileSystem

end TypedLinks
