import TypedLinks.Disk.Canonical
import TypedLinks.Proofs.Diagnostic.Location
import TypedLinks.Proofs.Sourcemap.Schema
import TypedLinks.Proofs.Sourcemap.Settled

/-!
# Paths and their texts

A path that is read from a text has names without separators. The text of such a path spells it: no
other path has the same text. Walking along such paths leads to such paths again, so the canonical
paths of files, and those of a sourcemap that was read, are known by their texts.
-/

namespace TypedLinks

namespace Text

variable {separator : CodePoint} {t u : Text}

/-- The pieces of a text hold no separator. -/
theorem notMem_of_mem_splitOn (h : u ∈ t.splitOn separator) : separator ∉ u := by
  induction t generalizing u with
  | nil =>
    rw [List.splitOn_nil, List.mem_singleton] at h
    rw [h]
    exact List.not_mem_nil
  | cons p t ih =>
    rw [List.splitOn_cons_eq_if_modifyHead] at h
    split at h
    · rcases List.mem_cons.1 h with rfl | h
      · exact List.not_mem_nil
      · exact ih h
    · rename_i hp
      obtain ⟨piece, pieces, hsplit⟩ := List.exists_cons_of_ne_nil (List.splitOn_ne_nil separator t)
      rw [hsplit] at h ih
      rcases List.mem_cons.1 h with rfl | h
      · exact List.not_mem_cons_of_ne_of_not_mem (fun heq => hp (beq_iff_eq.2 heq.symm))
          (ih List.mem_cons_self)
      · exact ih (List.mem_cons_of_mem _ h)

end Text

/-! ## Spelled paths -/

namespace Path

/-- Whether a name can be one of the names of a path that is read. -/
structure IsName (name : Text) : Prop where
  isStep : isStep name = true
  notMem : separator ∉ name

instance (name : Text) : Decidable (IsName name) :=
  decidable_of_iff (isStep name = true ∧ separator ∉ name)
    ⟨fun h => ⟨h.1, h.2⟩, fun h => ⟨h.1, h.2⟩⟩

/-- Whether the names of a path are those that can be read. -/
def Spelled (p : Path) : Prop := ∀ name ∈ p.names, IsName name

instance (p : Path) : Decidable p.Spelled :=
  inferInstanceAs (Decidable (∀ name ∈ p.names, IsName name))

variable {p q : Path} {name : Text}

/-- A path that is read is spelled by a text. -/
theorem spelled_ofText (t : Text) : (ofText t).Spelled := fun name hname => by
  obtain ⟨hname, hstep⟩ := List.mem_filter.1 hname
  exact ⟨hstep, Text.notMem_of_mem_splitOn hname⟩

theorem isName_parentName : IsName parentName := by decide

theorem IsName.cons_ne (h : IsName name) :
    ∃ p t, name = p :: t ∧ p ≠ separator := by
  cases name with
  | nil => exact absurd h.isStep (by decide)
  | cons p t => exact ⟨p, t, rfl, fun hp => h.notMem (hp ▸ List.mem_cons_self)⟩

/-- Names that are joined do not start with a separator. -/
theorem takeWhile_join {names : List Text} (h : ∀ name ∈ names, IsName name) :
    (Text.join [separator] names).takeWhile (· == separator) = [] := by
  cases names with
  | nil => rfl
  | cons name names =>
    obtain ⟨p, t, rfl, hp⟩ := (h name List.mem_cons_self).cons_ne
    obtain ⟨rest, hrest⟩ := Text.prefix_join [separator] (p :: t) names
    rw [← hrest, List.cons_append, List.takeWhile_cons_of_neg (by simpa using hp)]

namespace Spelled

/-- A spelled path is read from its text. -/
theorem ofText_text (h : p.Spelled) : ofText p.text = p := by
  obtain ⟨root, names⟩ := p
  have hstart := takeWhile_join h
  have hpieces : ((Text.join [separator] names).splitOn separator).filter isStep = names := by
    cases names with
    | nil => rfl
    | cons name names =>
      rw [Text.join, List.splitOn_intercalate separator (fun t ht => (h t ht).notMem)
        (List.cons_ne_nil _ _), List.filter_eq_self]
      exact fun t ht => (h t ht).isStep
  unfold Path.text
  generalize Text.join [separator] names = t at hstart hpieces
  split
  · rename_i hnil
    obtain ⟨hroot, rfl⟩ := List.append_eq_nil_iff.1 hnil
    cases root with
    | here => exact congrArg (Path.mk .here) hpieces
    | slash => cases hroot
    | doubleSlash => cases hroot
  · -- The separators of the root are those that the text starts with.
    have hroot : rootOf (root.text ++ t) = root := by
      obtain ⟨n, hn⟩ : ∃ n, root.text = List.replicate n separator := by
        cases root
        exacts [⟨0, rfl⟩, ⟨1, rfl⟩, ⟨2, rfl⟩]
      rw [rootOf, List.takeWhile_append_of_pos, hstart, List.append_nil]
      · cases root <;> rfl
      · intro c hc
        rw [hn] at hc
        exact beq_iff_eq.2 (List.eq_of_mem_replicate hc)
    have hseparator (u : Text) : (((separator :: u).splitOn separator).filter isStep) =
        (u.splitOn separator).filter isStep := by
      rw [List.splitOn_cons_eq_if_modifyHead, if_pos (beq_self_eq_true separator)]
      rfl
    have hnames : ((root.text ++ t).splitOn separator).filter isStep = names := by
      cases root with
      | here => exact hpieces
      | slash => exact (hseparator t).trans hpieces
      | doubleSlash => exact (hseparator (separator :: t)).trans ((hseparator t).trans hpieces)
    exact congrArg₂ Path.mk hroot hnames

/-- A spelled path is known by its text. -/
theorem eq_of_text (h : p.Spelled) (hq : q.Spelled) (heq : p.text = q.text) : p = q := by
  rw [← h.ofText_text, heq, hq.ofText_text]

theorem child (h : p.Spelled) (hname : IsName name) : (p.child name).Spelled :=
  List.forall_mem_append.2 ⟨h, List.forall_mem_singleton.2 hname⟩

theorem folder (h : p.Spelled) : p.folder.Spelled := fun n hn => h n (List.dropLast_subset _ hn)

theorem up (h : p.Spelled) : p.up.Spelled := by
  unfold Path.up
  split
  · split
    · exact h
    · exact h.child isName_parentName
  · split
    · exact h.child isName_parentName
    · exact h.folder

theorem join (h : p.Spelled) (hq : q.Spelled) : (p.join q).Spelled := by
  unfold Path.join
  split
  · exact hq
  · exact List.forall_mem_append.2 ⟨h, hq⟩

theorem normal (h : p.Spelled) : p.normal.Spelled := by
  have hfold (names : List Text) (hnames : ∀ name ∈ names, IsName name) (q : Path)
      (hq : q.Spelled) : (names.foldl
        (fun q name => if name = parentName then q.folder else q.child name) q).Spelled := by
    induction names generalizing q with
    | nil => exact hq
    | cons name names ih =>
      obtain ⟨hname, hnames⟩ := List.forall_mem_cons.1 hnames
      refine ih hnames _ ?_
      dsimp only
      split
      · exact hq.folder
      · exact hq.child hname
  exact hfold p.names h _ (List.forall_mem_nil _)

end Spelled

end Path

/-! ## Resolution -/

namespace FileSystem

/-- What is left to do has no separator in a name. -/
def Pending.Spelled : Pending → Prop
  | .name n => Path.separator ∉ n
  | .resolved _ => True

/-- The links that were met resolve to spelled paths. -/
def Visited.Spelled (visited : Visited) : Prop :=
  ∀ link known, visited.lookup link = some (some known) → known.Spelled

/-- A resolution that goes on with spelled paths. -/
def Advance.Spelled (a : Advance) : Prop :=
  match a with
  | .arrived p => p.Spelled
  | .link p _ rest visited => p.Spelled ∧ (∀ x ∈ rest, x.Spelled) ∧ Visited.Spelled visited
  | .cycle p _ => p.Spelled

theorem Visited.Spelled.cons {visited : Visited} {link : Path} {known : Option Path}
    (h : Visited.Spelled visited) (hknown : ∀ p, known = some p → p.Spelled) :
    Visited.Spelled ((link, known) :: visited) := by
  intro l p hp
  rw [List.lookup_cons] at hp
  split at hp
  · exact hknown p (Option.some.inj hp)
  · exact h l p hp

variable {fs : FileSystem} {folder : DiskLocation} {p q : Path} {strict : Bool}

theorem spelled_continued (h : p.Spelled) (names : List Text) : (continued p names).Spelled :=
  h.join (Path.spelled_ofText _)

theorem spelled_appendRest (h : p.Spelled) (names : List Text) (pending : List Pending) :
    (appendRest p names pending).Spelled := by
  induction pending generalizing p names with
  | nil => exact spelled_continued h names
  | cons x rest ih =>
    cases x with
    | name n => exact ih h _
    | resolved link => exact ih (spelled_continued h names) []

/-- From a spelled path a resolution leads to one, until a link has to be entered. -/
theorem spelled_of_advance {visited : Visited} {pending : List Pending} {a : Advance}
    (hvisited : Visited.Spelled visited) (hp : p.Spelled) (hpending : ∀ x ∈ pending, x.Spelled)
    (h : fs.advance folder strict visited p pending = .ok a) : a.Spelled := by
  induction pending generalizing visited p with
  | nil =>
    cases h
    exact hp
  | cons x rest ih =>
    obtain ⟨hx, hrest⟩ := List.forall_mem_cons.1 hpending
    cases x with
    | resolved link => exact ih (hvisited.cons fun q hq => Option.some.inj hq ▸ hp) hp hrest h
    | name n =>
      rw [advance] at h
      split at h
      · exact ih hvisited hp hrest h
      rename_i hstep
      have hchild : (p.child n).Spelled :=
        hp.child ⟨by rwa [Bool.not_eq_true', Bool.not_eq_false] at hstep, hx⟩
      split at h
      · exact ih hvisited hp.up hrest h
      split at h
      · split at h
        · cases h
        · exact ih hvisited hchild hrest h
      · cases h
      · split at h
        · exact ih hvisited (hvisited _ _ ‹_›) hrest h
        · cases h
          exact hchild
        · cases h
          exact ⟨hchild, hrest, hvisited⟩
      · exact ih hvisited hchild hrest h

theorem spelled_of_enter {links : Nat} {visited : Visited} {pending : List Pending}
    (hvisited : Visited.Spelled visited) (hp : p.Spelled) (hpending : ∀ x ∈ pending, x.Spelled)
    (h : fs.enter folder strict links visited p pending = .ok q) : q.Spelled := by
  fun_induction enter fs folder strict links visited p pending with
  | case1 => cases h
  | case2 links visited p pending p' hadvance =>
    cases h
    exact spelled_of_advance hvisited hp hpending hadvance
  | case3 => cases h
  | case4 links visited p pending link rest hadvance =>
    cases h
    exact spelled_appendRest (spelled_of_advance hvisited hp hpending hadvance) [] rest
  | case5 => cases h
  | case6 visited p pending links link target rest visited' hadvance ih =>
    obtain ⟨hlink, hrest, hvisited'⟩ := spelled_of_advance hvisited hp hpending hadvance
    refine ih (hvisited'.cons fun q hq => by cases hq) ?_ (List.forall_mem_append.2 ⟨?_, ?_⟩) h
    · split
      · exact List.forall_mem_nil _
      · exact hlink.folder
    · rintro x hx
      obtain ⟨n, hn, rfl⟩ := List.mem_map.1 hx
      exact Text.notMem_of_mem_splitOn hn
    · exact List.forall_mem_cons.2 ⟨trivial, hrest⟩

/-- Canonical paths are spelled. -/
theorem spelled_of_resolveFrom (hfolder : ∀ name ∈ folder, Path.IsName name) (hp : p.Spelled)
    (h : fs.resolveFrom strict folder p = .ok q) : q.Spelled := by
  unfold resolveFrom at h
  cases henter : fs.enter folder strict fs.maxEntered [] (origin p.isAbsolute)
      (p.names.map .name) with
  | error fault =>
    rw [henter] at h
    cases h
  | ok r =>
    rw [henter] at h
    cases h
    have hroot : (Path.absolute folder).Spelled := hfolder
    refine (hroot.join (spelled_of_enter ?_ ?_ ?_ henter)).normal
    · rintro link known ⟨⟩
    · unfold origin
      split <;> exact List.forall_mem_nil _
    · intro x hx
      obtain ⟨n, hn, rfl⟩ := List.mem_map.1 hx
      exact (hp n hn).notMem

theorem spelled_of_withoutLinks (hfolder : ∀ name ∈ folder, Path.IsName name) (hp : p.Spelled)
    (h : fs.withoutLinks folder p = .ok q) : q.Spelled := by
  unfold withoutLinks at h
  cases hresolve : fs.resolveFrom false folder p with
  | error fault =>
    rw [hresolve] at h
    cases h
  | ok r =>
    rw [hresolve] at h
    dsimp only [bind, Except.bind] at h
    split at h
    · cases h
    · cases h
      exact spelled_of_resolveFrom hfolder hp hresolve

end FileSystem

/-! ## Sourcemaps -/

namespace Node

open World

mutual

theorem spelled_of_shows : ∀ (n : Node) {j : Json}, j.Shows n → ∀ p ∈ n.allPaths, p.Spelled
  | mk name className paths children, j, h => by
    cases h with
    | mk own hchildren =>
      rw [allPaths, List.forall_mem_append]
      refine ⟨fun p hp => ?_, spelled_of_showsEach children hchildren⟩
      cases own with
      | object =>
        obtain ⟨t, -, rfl⟩ := List.mem_map.1 hp
        exact Path.spelled_ofText t

theorem spelled_of_showsEach : ∀ (ns : List Node) {js : List Json},
    List.Forall₂ Json.Shows js ns → ∀ p ∈ eachPaths ns, p.Spelled
  | [], _, _ => by
    rw [eachPaths]
    exact List.forall_mem_nil _
  | n :: ns, js, h => by
    cases h with
    | cons hfirst hothers =>
      rw [eachPaths, List.forall_mem_append]
      exact ⟨spelled_of_shows n hfirst, spelled_of_showsEach ns hothers⟩

end

/-- The paths of a sourcemap that was read are spelled. -/
theorem spelled_of_ofJson {place : Text} {j : Json} {tree : Node} (h : ofJson place j = .ok tree) :
    ∀ p ∈ tree.allPaths, p.Spelled :=
  spelled_of_shows tree (Json.ofJson_eq_ok_iff.1 h)

/-- Making a sourcemap of spelled paths canonical gives one. -/
theorem spelled_of_canonicalize {w w' : World} {base : Path} {tree tree' : Node}
    (hfolder : ∀ name ∈ w.folder, Path.IsName name) (hbase : base.Spelled)
    (htree : ∀ p ∈ tree.allPaths, p.Spelled)
    (h : exec (tree.canonicalize base) w = (.ok tree', w')) : ∀ p ∈ tree'.allPaths, p.Spelled := by
  rw [exec_canonicalize] at h
  intro q hq
  have hpaths := @paths_of_canonicalize w.frozen base tree tree' (Prod.mk.inj h).1
  obtain ⟨p, hp, hreal⟩ := (mem_iff_of_forall₂ hpaths fun p q q' hq hq' =>
    Except.ok.inj (hq.symm.trans hq')).1 hq
  exact FileSystem.spelled_of_resolveFrom hfolder (hbase.join (htree p hp)) hreal

end Node

end TypedLinks
