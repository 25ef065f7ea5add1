import TypedLinks.Proofs.Disk.Shape

/-!
# Paths that can be passed on

A text can be passed on as a path if each of its code points has bytes and none is zero. A path of
usable names stays one while its links are resolved, as long as these lead to usable paths
themselves; so the system may refuse it, but it is never unusable.
-/

namespace TypedLinks

/-! ## Texts -/

namespace Text

/-- A text that can be passed on as a path. -/
def Usable (t : Text) : Prop := t.unusable? = none

instance (t : Text) : Decidable t.Usable := inferInstanceAs (Decidable (_ = none))

variable {t u : Text}

theorem usable_iff :
    t.Usable ↔ ∀ p ∈ t, (p.isSurrogate && !isLooseByte p) = false ∧ p.val ≠ 0 := by
  unfold Usable unusable?
  constructor
  · intro h p hp
    split at h
    · cases h
    split at h
    · cases h
    rename_i hsurrogate hzero
    rw [List.any_eq_true, not_exists] at hsurrogate hzero
    exact ⟨Bool.eq_false_iff.2 fun hs => hsurrogate p ⟨hp, hs⟩,
      fun hz => hzero p ⟨hp, decide_eq_true hz⟩⟩
  · intro h
    rw [if_neg, if_neg]
    · rw [List.any_eq_true]
      rintro ⟨p, hp, hz⟩
      exact (h p hp).2 (of_decide_eq_true hz)
    · rw [List.any_eq_true]
      rintro ⟨p, hp, hs⟩
      rw [(h p hp).1] at hs
      contradiction

namespace Usable

theorem of_subset (h : u.Usable) (hsubset : t ⊆ u) : t.Usable :=
  usable_iff.2 fun p hp => usable_iff.1 h p (hsubset hp)

theorem append (h : t.Usable) (h' : u.Usable) : (t ++ u).Usable :=
  usable_iff.2 fun p hp => (List.mem_append.1 hp).elim (usable_iff.1 h p) (usable_iff.1 h' p)

theorem join {separator : Text} (hseparator : separator.Usable) {ts : List Text}
    (h : ∀ t ∈ ts, t.Usable) : (Text.join separator ts).Usable := by
  induction ts with
  | nil => rfl
  | cons t ts ih =>
    have hrest := ih fun u hu => h u (List.mem_cons_of_mem _ hu)
    cases ts with
    | nil =>
      rw [Text.join, List.intercalate_singleton]
      exact h t List.mem_cons_self
    | cons =>
      rw [Text.join, List.intercalate_cons_cons]
      exact ((h t List.mem_cons_self).append hseparator).append hrest

end Usable

end Text

/-! ## Paths -/

namespace Path

/-- A path of names that can be passed on. -/
def Usable (p : Path) : Prop := ∀ name ∈ p.names, name.Usable

variable {p q : Path} {name : Text}

theorem usable_parentName : parentName.Usable := by decide

theorem usable_separator : Text.Usable [separator] := by decide

namespace Usable

theorem text (h : p.Usable) : p.text.Usable := by
  have hroot : p.root.text.Usable := by
    cases p.root <;> decide
  have hnames := hroot.append (usable_separator.join h)
  unfold Path.text
  split
  · decide
  · exact hnames

theorem child (h : p.Usable) (hname : name.Usable) : (p.child name).Usable := by
  intro n hn
  rcases List.mem_append.1 hn with hn | hn
  · exact h n hn
  · rwa [List.mem_singleton.1 hn]

theorem folder (h : p.Usable) : p.folder.Usable := fun n hn => h n (List.dropLast_subset _ hn)

theorem up (h : p.Usable) : p.up.Usable := by
  unfold Path.up
  split
  · split
    · exact h
    · exact h.child usable_parentName
  · split
    · exact h.child usable_parentName
    · exact h.folder

theorem join (h : p.Usable) (hq : q.Usable) : (p.join q).Usable := by
  unfold Path.join
  split
  · exact hq
  · exact fun n hn => (List.mem_append.1 hn).elim (h n) (hq n)

end Usable

end Path

/-! ## Resolution -/

namespace FileSystem

/-- The links of a file system lead to paths that can be passed on. -/
def UsableLinks (fs : FileSystem) : Prop :=
  ∀ l target, fs.entry? l = some (.link target) → target.Usable

/-- What is left to do names only what can be passed on. -/
def Pending.Usable : Pending → Prop
  | .name n => n.Usable
  | .resolved _ => True

/-- The links that were met resolve to paths that can be passed on. -/
def Visited.Usable (visited : Visited) : Prop :=
  ∀ link known, visited.lookup link = some (some known) → known.Usable

/-- A resolution that goes on with what can be passed on. -/
def Advance.Usable (a : Advance) : Prop :=
  match a with
  | .arrived p => p.Usable
  | .link p target rest visited =>
    p.Usable ∧ target.Usable ∧ (∀ x ∈ rest, x.Usable) ∧ Visited.Usable visited
  | .cycle p _ => p.Usable

theorem Visited.Usable.cons {visited : Visited} {link : Path} {known : Option Path}
    (h : Visited.Usable visited) (hknown : ∀ p, known = some p → p.Usable) :
    Visited.Usable ((link, known) :: visited) := by
  intro l p hp
  rw [List.lookup_cons] at hp
  split at hp
  · exact hknown p (Option.some.inj hp)
  · exact h l p hp

/-- A result that satisfies a condition, or a fault other than that of an unusable path. -/
def Accepts {α : Type} (post : α → Prop) : Except DiskFault α → Prop
  | .ok a => post a
  | .error fault => ∀ why, fault ≠ .unusable why

variable {fs : FileSystem} {folder : DiskLocation} {p : Path} {strict : Bool}

/-- A refusal of a path that can be passed on. -/
theorem accepts_mapError {α : Type} {post : α → Prop} {x : Except Refusal α} {path : Text}
    (h : ∀ a, x = .ok a → post a) : Accepts post (x.mapError (DiskFault.refused · path)) := by
  cases x with
  | error refusal => exact fun why h => by cases h
  | ok a => exact h a rfl

theorem usable_of_locate {l : DiskLocation} (h : fs.locate folder p = .ok l) : p.text.Usable := by
  unfold locate at h
  split at h
  · cases h
  · assumption

theorem refused_of_locate {fault : DiskFault} (h : p.text.Usable)
    (hlocate : fs.locate folder p = .error fault) : ∃ refusal, fault = .refused refusal p.text := by
  rw [locate, h] at hlocate
  dsimp only at hlocate
  generalize (if maxPath < p.text.byteLength then .error .nameTooLong
    else fs.follow maxLinks (startOf folder p.isAbsolute) p.names :
      Except Refusal DiskLocation) = walk at hlocate
  cases walk with
  | error refusal =>
    cases hlocate
    exact ⟨refusal, rfl⟩
  | ok l => cases hlocate

/-- A file is not read because its path cannot be passed on, or because it is refused. -/
theorem cases_of_read {fault : DiskFault} (h : fs.read folder p = .error fault) :
    (p.text.Usable ∧ ∃ refusal text, fault = .refused refusal text) ∨
      (¬p.text.Usable ∧ ∃ why, fault = .unusable why) := by
  unfold read at h
  cases hunusable : p.text.unusable? with
  | some why =>
    refine .inr ⟨fun husable => ?_, why, ?_⟩
    · rw [husable] at hunusable
      cases hunusable
    · rw [locate, hunusable] at h
      cases h
      rfl
  | none =>
    refine .inl ⟨hunusable, ?_⟩
    cases hlocate : fs.locate folder p with
    | error fault' =>
      obtain ⟨refusal, hrefusal⟩ := refused_of_locate hunusable hlocate
      rw [hlocate] at h
      cases h
      exact ⟨refusal, _, hrefusal⟩
    | ok l =>
      rw [hlocate] at h
      dsimp only [bind, Except.bind] at h
      split at h <;> cases h <;> exact ⟨_, _, rfl⟩

theorem usable_of_read {bytes : List UInt8} (h : fs.read folder p = .ok bytes) :
    p.text.Usable := by
  obtain ⟨l, hl, -⟩ := read_eq_ok_iff.1 h
  exact usable_of_locate hl

theorem accepts_locate (h : p.Usable) : Accepts (fun _ => True) (fs.locate folder p) := by
  unfold locate
  rw [h.text]
  exact accepts_mapError fun _ _ => trivial

theorem cycleFault_ne_unusable (h : p.Usable) (why : Unusable) :
    fs.cycleFault folder p ≠ .unusable why := by
  have hlocate : Accepts (fun _ => True) (fs.locate folder p) := accepts_locate h
  unfold cycleFault
  split
  · simp
  · simp
  · rename_i fault _ heq
    rw [heq] at hlocate
    exact hlocate why

/-- What stands at a usable path is an entry of the file system. -/
theorem accepts_probe (h : p.Usable) :
    Accepts (fun e => ∃ l, fs.entry? l = some e) (fs.probe folder p) := by
  unfold probe
  rw [h.text]
  refine accepts_mapError fun e he => ?_
  have hmember {l : DiskLocation} {name : Text} (h : fs.member l name = .ok e) :
      ∃ l, fs.entry? l = some e := by
    unfold member at h
    split at h
    · cases h
    split at h
    · cases h
    split at h
    · cases h
    · cases h
      exact ⟨_, ‹_›⟩
  split at he
  · cases he
  · cases hfollow : fs.follow maxLinks (startOf folder p.isAbsolute) p.folder.names with
    | error refusal =>
      rw [hfollow] at he
      cases he
    | ok l =>
      rw [hfollow] at he
      exact hmember he

/-- What can be passed on is resolved to what can be passed on, until a link has to be entered. -/
theorem accepts_advance (hfs : fs.UsableLinks) {visited : Visited} {pending : List Pending}
    (hvisited : Visited.Usable visited) (hp : p.Usable) (hpending : ∀ x ∈ pending, x.Usable) :
    Accepts Advance.Usable (fs.advance folder strict visited p pending) := by
  induction pending generalizing visited p with
  | nil =>
    rw [advance]
    exact hp
  | cons x rest ih =>
    have hrest : ∀ x ∈ rest, x.Usable := fun y hy => hpending y (List.mem_cons_of_mem _ hy)
    cases x with
    | resolved link =>
      rw [advance]
      exact ih (hvisited.cons fun q hq => Option.some.inj hq ▸ hp) hp hrest
    | name n =>
      have hchild := hp.child (hpending _ List.mem_cons_self : n.Usable)
      have hprobe : Accepts _ (fs.probe folder (p.child n)) := accepts_probe hchild
      rw [advance]
      split
      · exact ih hvisited hp hrest
      split
      · exact ih hvisited hp.up hrest
      generalize fs.probe folder (p.child n) = r at hprobe
      rcases r with (⟨why, path⟩ | path | why) | (bytes | _ | target)
      · dsimp only
        split
        · exact fun why h => by cases h
        · exact ih hvisited hchild hrest
      · exact hprobe
      · exact hprobe
      · exact ih hvisited hchild hrest
      · exact ih hvisited hchild hrest
      · obtain ⟨l, hl⟩ := hprobe
        dsimp only
        split
        · rename_i known hknown
          exact ih hvisited (hvisited _ _ hknown) hrest
        · exact hchild
        · exact ⟨hchild, hfs l target hl, hrest, hvisited⟩

theorem accepts_enter (hfs : fs.UsableLinks) {links : Nat} {visited : Visited}
    {pending : List Pending} (hvisited : Visited.Usable visited) (hp : p.Usable)
    (hpending : ∀ x ∈ pending, x.Usable) :
    Accepts (fun _ => True) (fs.enter folder strict links visited p pending) := by
  have hadvance {visited p pending r} (hvisited : Visited.Usable visited) (hp : p.Usable)
      (hpending : ∀ x ∈ pending, Pending.Usable x)
      (h : fs.advance folder strict visited p pending = r) : Accepts Advance.Usable r :=
    h ▸ accepts_advance hfs hvisited hp hpending
  fun_induction enter fs folder strict links visited p pending with
  | case1 links visited p pending fault h => exact hadvance hvisited hp hpending h
  | case2 => trivial
  | case3 links visited p pending link rest h hstrict =>
    exact cycleFault_ne_unusable (hadvance hvisited hp hpending h)
  | case4 => trivial
  | case5 => exact fun why h => by cases h
  | case6 visited p pending links link target rest visited' h ih =>
    obtain ⟨hlink, htarget, hrest, hvisited'⟩ := hadvance hvisited hp hpending h
    refine ih (hvisited'.cons fun q hq => by cases hq) ?_ fun x hx => ?_
    · split
      · exact fun n hn => by cases hn
      · exact hlink.folder
    · rcases List.mem_append.1 hx with hx | hx
      · obtain ⟨n, hn, rfl⟩ := List.mem_map.1 hx
        exact htarget.of_subset (Text.subset_of_mem_splitOn hn)
      · rcases List.mem_cons.1 hx with rfl | hx
        · trivial
        · exact hrest x hx

/-- On a file system whose links lead to paths that can be passed on, a path of usable names is
never unusable. -/
theorem accepts_resolveFrom (hfs : fs.UsableLinks) (hp : p.Usable) :
    Accepts (fun _ => True) (fs.resolveFrom strict folder p) := by
  have hstart : (origin p.isAbsolute).Usable := by
    unfold origin
    split <;> exact fun n hn => by cases hn
  have hnames : ∀ x ∈ p.names.map Pending.name, x.Usable := fun x hx => by
    obtain ⟨n, hn, rfl⟩ := List.mem_map.1 hx
    exact hp n hn
  have hnone : Visited.Usable [] := fun l q hq => by cases hq
  have henter : Accepts (fun _ => True)
      (fs.enter folder strict fs.maxEntered [] (origin p.isAbsolute) (p.names.map .name)) :=
    accepts_enter hfs hnone hstart hnames
  unfold resolveFrom
  generalize fs.enter folder strict fs.maxEntered [] (origin p.isAbsolute)
    (p.names.map Pending.name) = r at henter
  cases r with
  | error fault => exact henter
  | ok q => trivial

end FileSystem

end TypedLinks
