import TypedLinks.Proofs.Packages.Discovery
import TypedLinks.Proofs.Sourcemap.Canonical

/-!
# The links that are found

The link files of a packages folder are found each once: those of the folder itself, then those of
each folder in its index, always in the order of the names. Which names a folder has matters, and
not the order in which the system lists them.
-/

namespace TypedLinks.Packages

/-! ## Names in order -/

theorem notAfter_iff {t u : Text} : notAfter t u = true ↔ ¬u < t := by
  induction t generalizing u with
  | nil => simp [notAfter]
  | cons p t ih =>
    cases u with
    | nil => simp [notAfter]
    | cons q u =>
      rw [notAfter, Bool.or_eq_true, Bool.and_eq_true, decide_eq_true_iff, decide_eq_true_iff, ih,
        List.cons_lt_cons_iff]
      grind

theorem sorted_perm (names : List Text) : (sorted names).Perm names := List.mergeSort_perm names _

theorem mem_sorted {names : List Text} {name : Text} : name ∈ sorted names ↔ name ∈ names :=
  (sorted_perm names).mem_iff

/-- Distinct names are put into increasing order. -/
theorem sorted_increasing {names : List Text} (h : names.Nodup) :
    (sorted names).Pairwise (· < ·) := by
  have hle : (sorted names).Pairwise fun t u => notAfter t u = true := by
    refine List.pairwise_mergeSort (fun t u v htu huv => ?_) (fun t u => ?_) names
    · rw [notAfter_iff, not_lt] at *
      exact htu.trans huv
    · rw [Bool.or_eq_true, notAfter_iff, notAfter_iff, not_lt, not_lt]
      exact le_total t u
  refine hle.imp₂ (fun t u hle hne => ?_) ((sorted_perm names).nodup_iff.2 h)
  rw [notAfter_iff, not_lt] at hle
  exact lt_of_le_of_ne hle hne

/-! ## What there is to be found -/

section Spec

variable [Disk Id]

/-- A name in a folder. -/
def Lists (folder : Path) (name : Text) : Prop :=
  ∃ names, Id.run (Disk.names folder) = .ok names ∧ name ∈ names

/-- A link that lies directly in a folder: a file that is named like a module. -/
structure IsLinkIn (folder p : Path) : Prop where
  listed : ∃ name, Lists folder name ∧ p = folder.child name
  isFile : Id.run (Disk.isFile p) = .ok true
  isModuleFile : p.isModuleFile = true

/-- A folder that lies directly in an index. -/
structure IsDependency (index : Path) (name : Text) : Prop where
  indexIsFolder : Id.run (Disk.isFolder index) = .ok true
  listed : Lists index name
  isFolder : Id.run (Disk.isFolder (index.child name)) = .ok true

/-- The links that lie directly in a folder, by increasing names. -/
structure LinksOf (folder : Path) (links : List Path) : Prop where
  mem_iff : ∀ p, p ∈ links ↔ IsLinkIn folder p
  increasing : links.Pairwise (·.name < ·.name)

/-- The folders of an index, by increasing names, and the links that lie directly in each. -/
structure GroupsOf (index : Path) (dependencies : List Text) (groups : Text → List Path) :
    Prop where
  mem_iff : ∀ name, name ∈ dependencies ↔ IsDependency index name
  increasing : dependencies.Pairwise (· < ·)
  links : ∀ name ∈ dependencies, LinksOf (index.child name) (groups name)

/-- The links of a packages folder in their order: those of the folder itself, and then those of the
folders in its index, folder by folder. -/
def Listing (folder : Path) (links : List Path) : Prop :=
  ∃ own dependencies groups, LinksOf folder own ∧
    GroupsOf (folder.child indexName) dependencies groups ∧
    links = own ++ dependencies.flatMap groups

/-- Whether a question to the disk is answered. -/
def Answered {α : Type} (answer : Except DiskFault α) : Prop := ∃ a, answer = .ok a

/-- A folder that is listed, and of each name in which it is known whether it is a file. -/
def Readable (folder : Path) : Prop :=
  ∃ names, Id.run (Disk.names folder) = .ok names ∧
    ∀ name ∈ names, Answered (Id.run (Disk.isFile (folder.child name)))

/-- A name of which it is known whether it is a folder, which can be read if it is one. -/
def FolderReadable (index : Path) (name : Text) : Prop :=
  Answered (Id.run (Disk.isFolder (index.child name))) ∧
    (Id.run (Disk.isFolder (index.child name)) = .ok true → Readable (index.child name))

/-- An index of which it is known whether it is a folder; if it is one, then it is listed and its
folders can be read. -/
def IndexReadable (index : Path) : Prop :=
  Answered (Id.run (Disk.isFolder index)) ∧
    (Id.run (Disk.isFolder index) = .ok true → ∃ names, Id.run (Disk.names index) = .ok names ∧
      ∀ name ∈ names, FolderReadable index name)

/-- The names in any folder are distinct. -/
def NamesDistinct : Prop := ∀ p names, Id.run (Disk.names p) = Except.ok names → names.Nodup

/-- What discovery finds on a disk that does not change. -/
def discovered (folder : Path) : Except Stop (List Path) :=
  (discover folder : ExceptT Stop Id (List Path)).run

end Spec

/-! ## Files of a folder -/

section Keep

variable {test : Text → ExceptT DiskFault Id Bool} {names kept : List Text}

theorem keep_answered :
    (∃ kept, (keep test names).run = Except.ok kept) ↔
      ∀ name ∈ names, ∃ b, (test name).run = Except.ok b := by
  induction names with
  | nil => exact ⟨fun _ => List.forall_mem_nil _, fun _ => ⟨[], rfl⟩⟩
  | cons name names ih =>
    rw [List.forall_mem_cons, ← ih]
    constructor
    · rintro ⟨kept, h⟩
      obtain ⟨b, hb, h⟩ := Node.run_bind_eq_ok.1 h
      obtain ⟨others, hothers, -⟩ := Node.run_bind_eq_ok.1 h
      exact ⟨⟨b, hb⟩, others, hothers⟩
    · rintro ⟨⟨b, hb⟩, others, hothers⟩
      exact ⟨_, Node.run_bind_eq_ok.2 ⟨b, hb, Node.run_bind_eq_ok.2 ⟨others, hothers, rfl⟩⟩⟩

/-- What is kept are the names that pass the test, in their order. -/
theorem of_keep (h : (keep test names).run = Except.ok kept) :
    kept.Sublist names ∧ ∀ name, name ∈ kept ↔ name ∈ names ∧ (test name).run = Except.ok true := by
  induction names generalizing kept with
  | nil =>
    cases h
    exact ⟨.slnil, fun name => by simp⟩
  | cons name names ih =>
    obtain ⟨b, hb, h⟩ := Node.run_bind_eq_ok.1 h
    obtain ⟨others, hothers, h⟩ := Node.run_bind_eq_ok.1 h
    obtain ⟨hsublist, hmem⟩ := ih hothers
    cases h
    cases b with
    | false =>
      refine ⟨hsublist.cons name, fun other => ?_⟩
      rw [if_neg Bool.false_ne_true, hmem, List.mem_cons]
      refine ⟨fun h => ⟨.inr h.1, h.2⟩, fun h => ⟨h.1.resolve_left ?_, h.2⟩⟩
      rintro rfl
      cases hb.symm.trans h.2
    | true =>
      refine ⟨hsublist.cons_cons name, fun other => ?_⟩
      rw [if_pos rfl, List.mem_cons, hmem, List.mem_cons]
      refine ⟨fun h => ?_, fun h => h.1.imp_right fun hother => ⟨hother, h.2⟩⟩
      rcases h with rfl | h
      · exact ⟨.inl rfl, hb⟩
      · exact ⟨.inr h.1, h.2⟩

end Keep

theorem name_child (folder : Path) (name : Text) : (folder.child name).name = name := by
  simp [Path.name, Path.child]

section Disk

variable [Disk Id] {folder index p : Path} {name : Text} {names : List Text} {links : List Path}

theorem links_answered :
    (∃ links, (linksIn folder : ExceptT DiskFault Id (List Path)).run = Except.ok links) ↔
      Readable folder := by
  constructor
  · rintro ⟨links, h⟩
    obtain ⟨names, hnames, h⟩ := Node.run_bind_eq_ok.1 h
    obtain ⟨files, hfiles, -⟩ := Node.run_bind_eq_ok.1 h
    exact ⟨names, hnames, keep_answered.1 ⟨files, hfiles⟩⟩
  · rintro ⟨names, hnames, hanswered⟩
    obtain ⟨files, hfiles⟩ := keep_answered.2 hanswered
    exact ⟨_, Node.run_bind_eq_ok.2 ⟨names, hnames, Node.run_bind_eq_ok.2 ⟨files, hfiles, rfl⟩⟩⟩

theorem linksOf_of_linksIn (hdistinct : NamesDistinct)
    (h : (linksIn folder : ExceptT DiskFault Id (List Path)).run = Except.ok links) :
    LinksOf folder links := by
  obtain ⟨names, hnames, h⟩ := Node.run_bind_eq_ok.1 h
  obtain ⟨files, hfiles, h⟩ := Node.run_bind_eq_ok.1 h
  obtain ⟨hsublist, hmem⟩ := of_keep hfiles
  cases h
  constructor
  · intro p
    rw [List.mem_filter, List.mem_map]
    constructor
    · rintro ⟨⟨name, hname, rfl⟩, hmodule⟩
      obtain ⟨hname, hfile⟩ := (hmem name).1 (mem_sorted.1 hname)
      exact ⟨⟨name, ⟨names, hnames, hname⟩, rfl⟩, hfile, hmodule⟩
    · rintro ⟨⟨name, ⟨names', hnames', hname⟩, rfl⟩, hfile, hmodule⟩
      cases hnames.symm.trans hnames'
      exact ⟨⟨name, mem_sorted.2 ((hmem name).2 ⟨hname, hfile⟩), rfl⟩, hmodule⟩
  · refine List.Pairwise.filter _ (List.pairwise_map.2 ?_)
    simp only [name_child]
    exact sorted_increasing ((hdistinct folder names hnames).sublist hsublist)

/-! ## Files of the folders of an index -/

/-- The links in a folder, none if it cannot be read. -/
def linksOrNone (folder : Path) : List Path :=
  ((linksIn folder : ExceptT DiskFault Id (List Path)).run.toOption).getD []

theorem linksOrNone_of_eq_ok
    (h : (linksIn folder : ExceptT DiskFault Id (List Path)).run = Except.ok links) :
    linksOrNone folder = links := by
  rw [linksOrNone, h]
  rfl

/-- The links of the first folder, if it is one, stand in front of those of the others. -/
theorem linksInFolders_cons :
    (linksInFolders index (name :: names) : ExceptT DiskFault Id (List Path)).run =
        Except.ok links ↔
      ∃ isFolder own others, Id.run (Disk.isFolder (index.child name)) = .ok isFolder ∧
        (if isFolder then (linksIn (index.child name) : ExceptT DiskFault Id _).run = Except.ok own
          else own = []) ∧
        (linksInFolders index names : ExceptT DiskFault Id _).run = Except.ok others ∧
        links = own ++ others := by
  constructor
  · intro h
    obtain ⟨isFolder, hisFolder, h⟩ := Node.run_bind_eq_ok.1 h
    refine ⟨isFolder, ?_⟩
    cases isFolder with
    | false =>
      obtain ⟨own, hown, h⟩ := Node.run_bind_eq_ok.1 h
      obtain ⟨others, hothers, h⟩ := Node.run_bind_eq_ok.1 h
      cases hown
      cases h
      exact ⟨[], others, hisFolder, rfl, hothers, rfl⟩
    | true =>
      obtain ⟨own, hown, h⟩ := Node.run_bind_eq_ok.1 h
      obtain ⟨others, hothers, h⟩ := Node.run_bind_eq_ok.1 h
      cases h
      exact ⟨own, others, hisFolder, hown, hothers, rfl⟩
  · rintro ⟨isFolder, own, others, hisFolder, hown, hothers, rfl⟩
    have hrest : ((linksInFolders index names >>= fun others => pure (own ++ others) :
        ExceptT DiskFault Id (List Path)).run) = Except.ok (own ++ others) :=
      Node.run_bind_eq_ok.2 ⟨others, hothers, rfl⟩
    refine Node.run_bind_eq_ok.2 ⟨isFolder, hisFolder, ?_⟩
    cases isFolder with
    | false =>
      cases hown
      exact Node.run_bind_eq_ok.2 ⟨[], rfl, hrest⟩
    | true => exact Node.run_bind_eq_ok.2 ⟨own, hown, hrest⟩

theorem folders_answered :
    (∃ links, (linksInFolders index names : ExceptT DiskFault Id _).run = Except.ok links) ↔
      ∀ name ∈ names, FolderReadable index name := by
  induction names with
  | nil => exact ⟨fun _ => List.forall_mem_nil _, fun _ => ⟨[], rfl⟩⟩
  | cons name names ih =>
    rw [List.forall_mem_cons, ← ih]
    constructor
    · rintro ⟨links, h⟩
      obtain ⟨isFolder, own, others, hisFolder, hown, hothers, -⟩ := linksInFolders_cons.1 h
      refine ⟨⟨⟨isFolder, hisFolder⟩, fun htrue => ?_⟩, others, hothers⟩
      cases hisFolder.symm.trans htrue
      exact links_answered.1 ⟨own, hown⟩
    · rintro ⟨⟨⟨isFolder, hisFolder⟩, hreadable⟩, others, hothers⟩
      cases isFolder with
      | false =>
        exact ⟨_, linksInFolders_cons.2 ⟨false, [], others, hisFolder, rfl, hothers, rfl⟩⟩
      | true =>
        obtain ⟨own, hown⟩ := links_answered.2 (hreadable hisFolder)
        exact ⟨_, linksInFolders_cons.2 ⟨true, own, others, hisFolder, hown, hothers, rfl⟩⟩

/-- Folder by folder, the links in those of some names that are folders. -/
theorem of_linksInFolders
    (h : (linksInFolders index names : ExceptT DiskFault Id _).run = Except.ok links) :
    ∃ dependencies : List Text, dependencies.Sublist names ∧
      (∀ name, name ∈ dependencies ↔
        name ∈ names ∧ Id.run (Disk.isFolder (index.child name)) = .ok true) ∧
      links = dependencies.flatMap fun name => linksOrNone (index.child name) := by
  induction names generalizing links with
  | nil =>
    cases h
    exact ⟨[], .slnil, fun name => by simp, rfl⟩
  | cons name names ih =>
    obtain ⟨isFolder, own, others, hisFolder, hown, hothers, rfl⟩ := linksInFolders_cons.1 h
    obtain ⟨dependencies, hsublist, hmem, rfl⟩ := ih hothers
    cases isFolder with
    | false =>
      cases hown
      refine ⟨dependencies, hsublist.cons name, fun other => ?_, rfl⟩
      rw [hmem, List.mem_cons]
      refine ⟨fun h => ⟨.inr h.1, h.2⟩, fun h => ⟨h.1.resolve_left ?_, h.2⟩⟩
      rintro rfl
      cases hisFolder.symm.trans h.2
    | true =>
      refine ⟨name :: dependencies, hsublist.cons_cons name, fun other => ?_, ?_⟩
      · rw [List.mem_cons, hmem, List.mem_cons]
        refine ⟨fun h => ?_, fun h => h.1.imp_right fun hother => ⟨hother, h.2⟩⟩
        rcases h with rfl | h
        · exact ⟨.inl rfl, hisFolder⟩
        · exact ⟨.inr h.1, h.2⟩
      · rw [List.flatMap_cons, linksOrNone_of_eq_ok hown]

theorem index_answered :
    (∃ links, (linksInIndex index : ExceptT DiskFault Id _).run = Except.ok links) ↔
      IndexReadable index := by
  constructor
  · rintro ⟨links, h⟩
    obtain ⟨isFolder, hisFolder, h⟩ := Node.run_bind_eq_ok.1 h
    refine ⟨⟨isFolder, hisFolder⟩, fun htrue => ?_⟩
    cases hisFolder.symm.trans htrue
    obtain ⟨names, hnames, h⟩ := Node.run_bind_eq_ok.1 h
    exact ⟨names, hnames, fun name hname => folders_answered.1 ⟨links, h⟩ name (mem_sorted.2 hname)⟩
  · rintro ⟨⟨isFolder, hisFolder⟩, hreadable⟩
    cases isFolder with
    | false => exact ⟨[], Node.run_bind_eq_ok.2 ⟨false, hisFolder, rfl⟩⟩
    | true =>
      obtain ⟨names, hnames, hfolders⟩ := hreadable hisFolder
      obtain ⟨links, hlinks⟩ :=
        folders_answered.2 fun name hname => hfolders name (mem_sorted.1 hname)
      exact ⟨links, Node.run_bind_eq_ok.2 ⟨true, hisFolder,
        Node.run_bind_eq_ok.2 ⟨names, hnames, hlinks⟩⟩⟩

theorem groupsOf_of_linksInIndex (hdistinct : NamesDistinct)
    (h : (linksInIndex index : ExceptT DiskFault Id _).run = Except.ok links) :
    ∃ dependencies groups, GroupsOf index dependencies groups ∧
      links = dependencies.flatMap groups := by
  have hreadable := (index_answered.1 ⟨links, h⟩).2
  obtain ⟨isFolder, hisFolder, h⟩ := Node.run_bind_eq_ok.1 h
  cases isFolder with
  | false =>
    cases h
    refine ⟨[], fun _ => [], ⟨fun name => ⟨fun h => ?_, fun h => ?_⟩, .nil, List.forall_mem_nil _⟩,
      rfl⟩
    · cases h
    · cases hisFolder.symm.trans h.indexIsFolder
  | true =>
    obtain ⟨names, hnames, h⟩ := Node.run_bind_eq_ok.1 h
    obtain ⟨names', hnames', hfolders⟩ := hreadable hisFolder
    cases hnames.symm.trans hnames'
    obtain ⟨dependencies, hsublist, hmem, rfl⟩ := of_linksInFolders h
    refine ⟨dependencies, _, ⟨fun name => ?_, ?_, fun name hname => ?_⟩, rfl⟩
    · rw [hmem, mem_sorted]
      constructor
      · exact fun h => ⟨hisFolder, ⟨names, hnames, h.1⟩, h.2⟩
      · rintro ⟨-, ⟨names', hnames', hname⟩, hfolder⟩
        cases hnames.symm.trans hnames'
        exact ⟨hname, hfolder⟩
    · exact (sorted_increasing (hdistinct index names hnames)).sublist hsublist
    · obtain ⟨hname, hfolder⟩ := (hmem name).1 hname
      obtain ⟨own, hown⟩ := links_answered.2 ((hfolders name (mem_sorted.1 hname)).2 hfolder)
      rw [linksOrNone_of_eq_ok hown]
      exact linksOf_of_linksIn hdistinct hown

/-! ## The whole listing -/

/-- The links of a packages folder are its own and those of its index. -/
theorem discovered_eq_ok_iff : discovered folder = .ok links ↔
    Id.run (Disk.isFolder folder) = .ok true ∧
      ∃ own indexed, (linksIn folder : ExceptT DiskFault Id _).run = Except.ok own ∧
        (linksInIndex (folder.child indexName) : ExceptT DiskFault Id _).run = Except.ok indexed ∧
        links = own ++ indexed := by
  let listing : ExceptT DiskFault Id (List Path) := do
    let own ← linksIn folder
    let indexed ← linksInIndex (folder.child indexName)
    return own ++ indexed
  have hlisting : listing.run = Except.ok links ↔
      ∃ own indexed, (linksIn folder : ExceptT DiskFault Id _).run = Except.ok own ∧
        (linksInIndex (folder.child indexName) : ExceptT DiskFault Id _).run = Except.ok indexed ∧
        links = own ++ indexed := by
    constructor
    · intro h
      obtain ⟨own, hown, h⟩ := Node.run_bind_eq_ok.1 h
      obtain ⟨indexed, hindexed, h⟩ := Node.run_bind_eq_ok.1 h
      cases h
      exact ⟨own, indexed, hown, hindexed, rfl⟩
    · rintro ⟨own, indexed, hown, hindexed, rfl⟩
      exact Node.run_bind_eq_ok.2 ⟨own, hown, Node.run_bind_eq_ok.2 ⟨indexed, hindexed, rfl⟩⟩
  rw [← hlisting]
  constructor
  · intro h
    obtain ⟨answer, hanswer, h⟩ := Node.run_bind_eq_ok.1 h
    have hfolder : Id.run (Disk.isFolder folder) = answer := Except.ok.inj hanswer
    rcases answer with fault | _ | _
    · cases h
    · cases h
    · obtain ⟨result, hresult, h⟩ := Node.run_bind_eq_ok.1 h
      have hrun : listing.run = result := Except.ok.inj hresult
      cases result with
      | error fault => cases h
      | ok links' =>
        cases h
        exact ⟨hfolder, hrun⟩
  · rintro ⟨hfolder, hrun⟩
    exact Node.run_bind_eq_ok.2 ⟨.ok true, congrArg Except.ok hfolder,
      Node.run_bind_eq_ok.2 ⟨.ok links, congrArg Except.ok hrun, rfl⟩⟩

theorem discovered_answered : (∃ links, discovered folder = .ok links) ↔
    Id.run (Disk.isFolder folder) = .ok true ∧ Readable folder ∧
      IndexReadable (folder.child indexName) := by
  rw [← links_answered, ← index_answered]
  constructor
  · rintro ⟨links, h⟩
    obtain ⟨hfolder, own, indexed, hown, hindexed, -⟩ := discovered_eq_ok_iff.1 h
    exact ⟨hfolder, ⟨own, hown⟩, indexed, hindexed⟩
  · rintro ⟨hfolder, ⟨own, hown⟩, indexed, hindexed⟩
    exact ⟨_, discovered_eq_ok_iff.2 ⟨hfolder, own, indexed, hown, hindexed, rfl⟩⟩

theorem listing_of_discovered (hdistinct : NamesDistinct) (h : discovered folder = .ok links) :
    Listing folder links := by
  obtain ⟨-, own, indexed, hown, hindexed, rfl⟩ := discovered_eq_ok_iff.1 h
  obtain ⟨dependencies, groups, hgroups, rfl⟩ := groupsOf_of_linksInIndex hdistinct hindexed
  exact ⟨own, dependencies, groups, linksOf_of_linksIn hdistinct hown, hgroups, rfl⟩

/-! ## Each link once -/

theorem LinksOf.nodup (h : LinksOf folder links) : links.Nodup :=
  h.increasing.imp fun hlt heq => (heq ▸ hlt).false

/-- A link is in the folder it is listed in only. -/
theorem IsLinkIn.folder_eq (h : IsLinkIn folder p) : p.folder = folder := by
  obtain ⟨name, -, rfl⟩ := h.listed
  simp [Path.folder, Path.child]

namespace Listing

theorem mem_iff (h : Listing folder links) (p : Path) :
    p ∈ links ↔ IsLinkIn folder p ∨ ∃ name, IsDependency (folder.child indexName) name ∧
      IsLinkIn ((folder.child indexName).child name) p := by
  obtain ⟨own, dependencies, groups, hown, hgroups, rfl⟩ := h
  rw [List.mem_append, hown.mem_iff, List.mem_flatMap]
  refine or_congr_right (exists_congr fun name => ?_)
  rw [hgroups.mem_iff]
  refine and_congr_right fun hname => ?_
  exact (hgroups.links name ((hgroups.mem_iff name).2 hname)).mem_iff p

theorem nodup (h : Listing folder links) : links.Nodup := by
  obtain ⟨own, dependencies, groups, hown, hgroups, rfl⟩ := h
  refine List.nodup_append'.2 ⟨hown.nodup, List.nodup_flatMap.2 ⟨fun name hname => ?_, ?_⟩, ?_⟩
  · exact (hgroups.links name hname).nodup
  · refine hgroups.increasing.imp_of_mem fun {name name'} hname hname' hlt p hp hp' => ?_
    have hfolder := (((hgroups.links name hname).mem_iff p).1 hp).folder_eq
    have hfolder' := (((hgroups.links name' hname').mem_iff p).1 hp').folder_eq
    have heq := hfolder.symm.trans hfolder'
    rw [← name_child (folder.child indexName) name, heq, name_child] at hlt
    exact hlt.false
  · intro p hp hp'
    obtain ⟨name, hname, hp'⟩ := List.mem_flatMap.1 hp'
    have hfolder := ((hown.mem_iff p).1 hp).folder_eq
    have hfolder' := (((hgroups.links name hname).mem_iff p).1 hp').folder_eq
    have hlength := congrArg (·.names.length) (hfolder.symm.trans hfolder')
    simp [Path.child] at hlength

end Listing

/-! ## Listings in another order -/

theorem LinksOf.unique {links' : List Path} (h : LinksOf folder links)
    (h' : LinksOf folder links') : links = links' := by
  have : Std.Irrefl fun p q : Path => p.name < q.name := ⟨fun p => lt_irrefl p.name⟩
  have : Std.Antisymm fun p q : Path => p.name < q.name :=
    ⟨fun p q hpq hqp => absurd (hpq.trans hqp) (lt_irrefl p.name)⟩
  exact h.increasing.eq_of_mem_iff h'.increasing fun p => (h.mem_iff p).trans (h'.mem_iff p).symm

/-- What is to be found, and in what order, is settled. -/
theorem Listing.unique {links' : List Path} (h : Listing folder links)
    (h' : Listing folder links') : links = links' := by
  obtain ⟨own, dependencies, groups, hown, hgroups, rfl⟩ := h
  obtain ⟨own', dependencies', groups', hown', hgroups', rfl⟩ := h'
  have heq : dependencies = dependencies' :=
    hgroups.increasing.eq_of_mem_iff hgroups'.increasing fun name =>
      (hgroups.mem_iff name).trans (hgroups'.mem_iff name).symm
  subst heq
  rw [hown.unique hown', List.flatMap_congr fun name hname =>
    (hgroups.links name hname).unique (hgroups'.links name hname)]

end Disk

/-- Two answers to a listing that differ in the order of the names at most. -/
inductive SameNames : Except DiskFault (List Text) → Except DiskFault (List Text) → Prop where
  | fault (fault : DiskFault) : SameNames (.error fault) (.error fault)
  | names {names names' : List Text} (perm : names.Perm names') : SameNames (.ok names) (.ok names')

/-- Two disks with the same files and folders, each folder of which is listed in any order. -/
structure Relisted (disk disk' : Disk Id) : Prop where
  isFile : ∀ p, disk'.isFile p = disk.isFile p
  isFolder : ∀ p, disk'.isFolder p = disk.isFolder p
  names : ∀ p, SameNames (Id.run (disk.names p)) (Id.run (disk'.names p))

namespace Relisted

variable {disk disk' : Disk Id} {folder index p : Path} {name : Text} {links : List Path}

theorem symm (h : Relisted disk disk') : Relisted disk' disk where
  isFile p := (h.isFile p).symm
  isFolder p := (h.isFolder p).symm
  names p := by
    have hp := h.names p
    generalize Id.run (disk.names p) = answer, Id.run (disk'.names p) = answer' at hp
    cases hp with
    | fault fault => exact .fault fault
    | names perm => exact .names perm.symm

theorem exists_names (h : Relisted disk disk') {names : List Text}
    (hnames : Id.run (disk.names p) = .ok names) :
    ∃ names', Id.run (disk'.names p) = .ok names' ∧ names.Perm names' := by
  have hp := h.names p
  rw [hnames] at hp
  generalize Id.run (disk'.names p) = answer' at hp
  cases hp with
  | names perm => exact ⟨_, rfl, perm⟩

theorem namesDistinct (h : Relisted disk disk') (hdistinct : @NamesDistinct disk) :
    @NamesDistinct disk' := fun p names hnames => by
  obtain ⟨names', hnames', hperm⟩ := h.symm.exists_names hnames
  exact hperm.nodup_iff.2 (hdistinct p names' hnames')

theorem lists (h : Relisted disk disk') (hname : @Lists disk folder name) :
    @Lists disk' folder name := by
  obtain ⟨names, hnames, hname⟩ := hname
  obtain ⟨names', hnames', hperm⟩ := h.exists_names hnames
  exact ⟨names', hnames', hperm.mem_iff.1 hname⟩

theorem isLinkIn (h : Relisted disk disk') (hp : @IsLinkIn disk folder p) :
    @IsLinkIn disk' folder p := by
  obtain ⟨⟨name, hname, rfl⟩, hfile, hmodule⟩ := hp
  exact @IsLinkIn.mk disk' _ _ ⟨name, h.lists hname, rfl⟩ ((h.isFile _).trans hfile) hmodule

theorem isDependency (h : Relisted disk disk') (hname : @IsDependency disk index name) :
    @IsDependency disk' index name := by
  obtain ⟨hindex, hlisted, hfolder⟩ := hname
  exact @IsDependency.mk disk' _ _ ((h.isFolder _).trans hindex) (h.lists hlisted)
    ((h.isFolder _).trans hfolder)

theorem linksOf (h : Relisted disk disk') (hlinks : @LinksOf disk folder links) :
    @LinksOf disk' folder links := by
  obtain ⟨hmem, hincreasing⟩ := hlinks
  exact @LinksOf.mk disk' _ _ (fun p => (hmem p).trans ⟨h.isLinkIn, h.symm.isLinkIn⟩) hincreasing

theorem listing (h : Relisted disk disk') (hlinks : @Listing disk folder links) :
    @Listing disk' folder links := by
  obtain ⟨own, dependencies, groups, hown, ⟨hmem, hincreasing, hlinks⟩, rfl⟩ := hlinks
  refine ⟨own, dependencies, groups, h.linksOf hown, @GroupsOf.mk disk' _ _ _ (fun name => ?_)
    hincreasing (fun name hname => h.linksOf (hlinks name hname)), rfl⟩
  exact (hmem name).trans ⟨h.isDependency, h.symm.isDependency⟩

theorem readable (h : Relisted disk disk') (hfolder : @Readable disk folder) :
    @Readable disk' folder := by
  obtain ⟨names, hnames, hfiles⟩ := hfolder
  obtain ⟨names', hnames', hperm⟩ := h.exists_names hnames
  refine ⟨names', hnames', fun name hname => ?_⟩
  rw [h.isFile]
  exact hfiles name (hperm.mem_iff.2 hname)

theorem indexReadable (h : Relisted disk disk') (hindex : @IndexReadable disk index) :
    @IndexReadable disk' index := by
  unfold IndexReadable
  rw [h.isFolder]
  refine ⟨hindex.1, fun hfolder => ?_⟩
  obtain ⟨names, hnames, hfolders⟩ := hindex.2 hfolder
  obtain ⟨names', hnames', hperm⟩ := h.exists_names hnames
  refine ⟨names', hnames', fun name hname => ?_⟩
  obtain ⟨hanswered, hreadable⟩ := hfolders name (hperm.mem_iff.2 hname)
  unfold FolderReadable
  rw [h.isFolder]
  exact ⟨hanswered, fun hfolder => h.readable (hreadable hfolder)⟩

/-- A disk that lists its folders in another order has the same links in the same order. -/
theorem discovered (h : Relisted disk disk') (hdistinct : @NamesDistinct disk)
    (hlinks : @discovered disk folder = .ok links) :
    @Packages.discovered disk' folder = .ok links := by
  obtain ⟨hfolder, hreadable, hindex⟩ := (@discovered_answered disk folder).1 ⟨links, hlinks⟩
  obtain ⟨links', hlinks'⟩ := (@discovered_answered disk' folder).2
    ⟨(h.isFolder _).trans hfolder, h.readable hreadable, h.indexReadable hindex⟩
  have hlisting := h.listing (@listing_of_discovered disk folder links hdistinct hlinks)
  have hlisting' := @listing_of_discovered disk' folder links' (h.namesDistinct hdistinct) hlinks'
  rw [hlinks', @Listing.unique disk' folder links links' hlisting hlisting']

end Relisted

/-! ## Discovery in a world -/

section World

open World

variable {w : World}

/-- Names in a folder are distinct where no location is taken twice. -/
theorem namesDistinct_frozen (h : (w.files.entries.map Prod.fst).Nodup) :
    @NamesDistinct w.frozen := by
  intro p names hnames
  change w.files.names w.folder p = .ok names at hnames
  have hlocation {k l : DiskLocation} {name : Text}
      (h : name ∈ if k.dropLast = l then k.getLast? else none) : k = l ++ [name] := by
    split at h
    · rename_i hl
      rw [← hl]
      exact (List.dropLast_append_getLast? name h).symm
    · cases h
  unfold FileSystem.names at hnames
  cases hl : w.files.locate w.folder p with
  | error fault =>
    rw [hl] at hnames
    cases hnames
  | ok l =>
    rw [hl] at hnames
    dsimp only [bind, Except.bind] at hnames
    split at hnames
    · cases hnames
      have hmap : w.files.namesIn l = (w.files.entries.map Prod.fst).filterMap
          fun k => if k.dropLast = l then k.getLast? else none := by
        rw [List.filterMap_map]
        rfl
      rw [hmap]
      exact h.filterMap fun k k' name hk hk' => (hlocation hk).trans (hlocation hk').symm
    · cases hnames

/-! ### Entries in another order -/

theorem lookup_eq_of_perm {α β : Type} [BEq α] [LawfulBEq α] {xs ys : List (α × β)}
    (h : xs.Perm ys) (hnodup : (xs.map Prod.fst).Nodup) (a : α) : xs.lookup a = ys.lookup a := by
  induction h with
  | nil => rfl
  | cons x _ ih => rw [List.lookup_cons, List.lookup_cons, ih (List.nodup_cons.1 hnodup).2]
  | swap x y xs =>
    have hne : y.1 ≠ x.1 := fun heq => (List.nodup_cons.1 hnodup).1 (heq ▸ List.mem_cons_self)
    rw [List.lookup_cons, List.lookup_cons, List.lookup_cons, List.lookup_cons]
    by_cases hx : a = x.1
    · rw [beq_iff_eq.2 hx, beq_eq_false_iff_ne.2 fun hy => hne (hy.symm.trans hx)]
    · rw [beq_eq_false_iff_ne.2 hx]
  | trans h _ ih ih' => rw [ih hnodup, ih' ((h.map Prod.fst).nodup_iff.1 hnodup)]

/-- A disk with the same entries in another order differs in the order of listings only. -/
theorem relisted_of_perm {fs : FileSystem} (hperm : w.files.entries.Perm fs.entries)
    (hnodup : (w.files.entries.map Prod.fst).Nodup) :
    Relisted w.frozen { w with files := fs }.frozen := by
  have halike : w.files.Alike fs := ⟨fun l => by
    rw [FileSystem.entry?, FileSystem.entry?, lookup_eq_of_perm hperm hnodup]⟩
  refine ⟨fun p => (halike.isFile w.folder p).symm, fun p => (halike.isFolder w.folder p).symm,
    fun p => ?_⟩
  change SameNames (w.files.names w.folder p) (fs.names w.folder p)
  unfold FileSystem.names
  rw [halike.locate]
  cases fs.locate w.folder p with
  | error fault => exact .fault fault
  | ok l =>
    simp only [bind, Except.bind, halike.entry?_eq_folder_iff]
    split
    · exact .names (hperm.filterMap _)
    · exact .fault _

/-- An entry that is taken away and put back is listed at the end, and nothing else changes. -/
theorem relisted_of_put_back {l : DiskLocation} {e : Entry}
    (hnodup : (w.files.entries.map Prod.fst).Nodup) (he : w.files.entries.lookup l = some e) :
    Relisted w.frozen { w with files := (w.files.remove l).put l e }.frozen := by
  obtain ⟨before, after, hentries, -⟩ := List.lookup_eq_some_iff.1 he
  rw [hentries, List.map_append, List.map_cons] at hnodup
  have hrest : l ∉ (before ++ after).map Prod.fst := by
    rw [List.map_append]
    exact (List.nodup_cons.1 (List.nodup_middle.1 hnodup)).1
  have hremove : (w.files.remove l).entries = before ++ after := by
    have hkept : (before ++ after).filter (fun x => x.1 ≠ l) = before ++ after :=
      List.filter_eq_self.2 fun x hx =>
        decide_eq_true fun heq => hrest (heq ▸ List.mem_map_of_mem hx)
    rw [FileSystem.remove, hentries, ← hkept, List.filter_append, List.filter_append,
      List.filter_cons_of_neg (by simp)]
  have hlookup : (w.files.remove l).entries.lookup l = none := by
    rw [hremove, List.lookup_eq_none_iff]
    exact fun x hx => bne_iff_ne.2 fun heq => hrest (heq ▸ List.mem_map_of_mem hx)
  have hput : ((w.files.remove l).put l e).entries = before ++ after ++ [(l, e)] := by
    unfold FileSystem.put
    rw [hlookup, hremove]
    rfl
  refine relisted_of_perm ?_ ?_
  · rw [hput, hentries]
    exact List.perm_middle.trans (List.perm_append_singleton _ _).symm
  · rw [hentries, List.map_append, List.map_cons]
    exact hnodup

theorem exec_keep {test : Text → ExceptT DiskFault (StateM World) Bool}
    {test' : Text → ExceptT DiskFault Id Bool}
    (h : ∀ name, exec (test name) w = ((test' name).run, w)) (names : List Text) :
    exec (keep test names) w = ((keep test' names).run, w) := by
  induction names with
  | nil => rfl
  | cons name names ih =>
    exact exec_bind_eq_run (h name) fun _ => exec_bind_eq_run ih fun _ => rfl

theorem exec_linksIn (w : World) (folder : Path) :
    exec (linksIn folder : ExceptT DiskFault (StateM World) (List Path)) w =
      ((@linksIn Id _ w.frozen folder).run, w) := by
  refine exec_bind_eq_run rfl fun names => exec_bind_eq_run (exec_keep ?_ names) fun _ => rfl
  exact fun _ => rfl

theorem exec_linksInFolders (w : World) (index : Path) (names : List Text) :
    exec (linksInFolders index names : ExceptT DiskFault (StateM World) (List Path)) w =
      ((@linksInFolders Id _ w.frozen index names).run, w) := by
  induction names with
  | nil => rfl
  | cons name names ih =>
    refine exec_bind_eq_run rfl fun isFolder => ?_
    cases isFolder with
    | false => exact exec_bind_eq_run rfl fun _ => exec_bind_eq_run ih fun _ => rfl
    | true =>
      exact exec_bind_eq_run (exec_linksIn w _) fun _ => exec_bind_eq_run ih fun _ => rfl

theorem exec_linksInIndex (w : World) (index : Path) :
    exec (linksInIndex index : ExceptT DiskFault (StateM World) (List Path)) w =
      ((@linksInIndex Id _ w.frozen index).run, w) := by
  refine exec_bind_eq_run rfl fun isFolder => ?_
  cases isFolder with
  | false => rfl
  | true => exact exec_bind_eq_run rfl fun names => exec_linksInFolders w index (sorted names)

/-- In a world discovery finds what it finds on the disk of the world, and changes nothing. -/
theorem exec_discover (w : World) (folder : Path) :
    exec (discover folder : ExceptT Stop (StateM World) (List Path)) w =
      (@discovered w.frozen folder, w) := by
  refine exec_bind_eq_run rfl fun answer => ?_
  rcases answer with fault | _ | _
  · rfl
  · rfl
  · have hlisting : exec (do
        let own ← linksIn folder
        let indexed ← linksInIndex (folder.child indexName)
        return own ++ indexed : ExceptT DiskFault (StateM World) (List Path)) w = _ :=
      exec_bind_eq_run (exec_linksIn w folder) fun _ =>
        exec_bind_eq_run (exec_linksInIndex w _) fun _ => rfl
    refine exec_bind_eq_run ((exec_lift_run _ w).trans (by rw [hlisting]; rfl)) fun result => ?_
    cases result <;> rfl

end World

/-! ## The order of discovery -/

/-- Discovery on a disk that does not change and whose folders have distinct names. It finds links
exactly if the packages folder is a folder and each question that it asks is answered. Then it finds,
each once, the links that lie directly in the folder or directly in a folder that lies directly in
its index, and nothing else: first those of the folder, then those of each folder in the index by
increasing names, each group by increasing names. And it finds the same if the folders of the disk
are listed in any other order. -/
theorem links_discovered [disk : Disk Id] (hdistinct : NamesDistinct) (folder : Path) :
    ((∃ links, discovered folder = .ok links) ↔ Id.run (Disk.isFolder folder) = .ok true ∧
      Readable folder ∧ IndexReadable (folder.child indexName)) ∧
    (∀ links, discovered folder = .ok links → links.Nodup ∧
      (∀ p, p ∈ links ↔ IsLinkIn folder p ∨ ∃ name, IsDependency (folder.child indexName) name ∧
        IsLinkIn ((folder.child indexName).child name) p) ∧
      Listing folder links) ∧
    ∀ disk' : Disk Id, Relisted disk disk' → ∀ links,
      @discovered disk' folder = .ok links ↔ @discovered disk folder = .ok links := by
  refine ⟨discovered_answered, fun links h => ?_, fun disk' hrelisted links => ?_⟩
  · have hlisting := listing_of_discovered hdistinct h
    exact ⟨hlisting.nodup, hlisting.mem_iff, hlisting⟩
  · exact ⟨hrelisted.symm.discovered (hrelisted.namesDistinct hdistinct),
      hrelisted.discovered hdistinct⟩

/-! ### A folder listed in any order -/

/-- A packages folder with files, folders and links whose names end like those of modules, and the
names of which are not listed in order. -/
def shuffledWorld : World where
  files := ⟨[(["P"], .folder),
    (["P", "b.lua"], .file []), (["P", "a.luau"], .link "b.lua"), (["P", "B.lua"], .file []),
    (["P", "c.lua"], .folder), (["P", "c.lua", "d.lua"], .file []), (["P", "a.txt"], .file []),
    (["P", "_Index"], .folder), (["P", "_Index", "x.lua"], .file []),
    (["P", "_Index", "q"], .link "../../Q"), (["P", "_Index", "p"], .folder),
    (["P", "_Index", "p", "b.lua"], .file []), (["P", "_Index", "p", "a.lua"], .file []),
    (["P", "_Index", "p", "a"], .folder), (["P", "_Index", "p", "a", "init.lua"], .file []),
    (["Q"], .folder), (["Q", "q.lua"], .file [])]⟩

/-- The links of the folder. -/
def shuffledLinks : List Path :=
  [.absolute ["P", "B.lua"], .absolute ["P", "a.luau"], .absolute ["P", "b.lua"],
    .absolute ["P", "_Index", "p", "a.lua"], .absolute ["P", "_Index", "p", "b.lua"],
    .absolute ["P", "_Index", "q", "q.lua"]]

/-- The links are found in their order, each once, and in whatever order the folders are listed; so
also if an entry has been taken away and put back. -/
theorem shuffledLinks_discovered :
    letI := shuffledWorld.frozen
    NamesDistinct ∧ discovered (.absolute ["P"]) = .ok shuffledLinks ∧ shuffledLinks.Nodup ∧
      Listing (.absolute ["P"]) shuffledLinks ∧
      (∀ disk' : Disk Id, Relisted shuffledWorld.frozen disk' →
        @discovered disk' (.absolute ["P"]) = .ok shuffledLinks) ∧
      ∀ l e, shuffledWorld.files.entries.lookup l = some e →
        @discovered { shuffledWorld with files := (shuffledWorld.files.remove l).put l e }.frozen
          (.absolute ["P"]) = .ok shuffledLinks := by
  let := shuffledWorld.frozen
  have hnodup : (shuffledWorld.files.entries.map Prod.fst).Nodup := by decide
  have hdistinct : NamesDistinct := namesDistinct_frozen hnodup
  have hfound : discovered (.absolute ["P"]) = .ok shuffledLinks := by cbv
  obtain ⟨-, hlisting, horder⟩ := links_discovered hdistinct (.absolute ["P"])
  obtain ⟨hlinks, -, hlisting⟩ := hlisting shuffledLinks hfound
  exact ⟨hdistinct, hfound, hlinks, hlisting, fun disk' h => (horder disk' h _).2 hfound,
    fun l e he => (horder _ (relisted_of_put_back hnodup he) _).2 hfound⟩

end TypedLinks.Packages
