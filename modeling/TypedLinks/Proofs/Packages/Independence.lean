import Mathlib
import TypedLinks.Proofs.Link.Decoding
import TypedLinks.Proofs.Packages.Frame

/-!
# Independent link files

Link files that are different files, of which none is the module of another or of itself, have the
same outcome and the same text in the end as each of them alone, in every order, and a dry run
predicts them.
-/

namespace TypedLinks

open World Link

/-- Link files, each with what becomes of it alone, that have nothing to do with each other: they
have different canonical paths, and no module of theirs has one of these paths. No file has two of
the canonical paths. -/
structure Independent (tree : Node) (w : World) (ps : List Path) (x : Path → Processed)
    (f : Path → World) : Prop where
  alone : ∀ p ∈ ps, exec (process false tree p) w = (.ok (x p), f p)
  distinct : (ps.map fun p => (x p).link).Nodup
  module : ∀ p ∈ ps, ∀ q ∈ ps, ∀ m, Selects w.files w.folder tree (x p).link m → m ≠ (x q).link
  canonical : w.files.NamesOnce w.folder fun a =>
    ∃ p ∈ ps, a = (x p).link ∨ Selects w.files w.folder tree (x p).link a

namespace Independent

variable {tree : Node} {w v : World} {ps done rest : List Path} {x : Path → Processed}
  {f : Path → World} {dryRun : Bool} {p q : Path}

theorem perm {qs : List Path} (h : Independent tree w ps x f) (hperm : qs.Perm ps) :
    Independent tree w qs x f where
  alone p hp := h.alone p (hperm.mem_iff.1 hp)
  distinct := ((hperm.map _).nodup_iff).2 h.distinct
  module p hp q hq := h.module p (hperm.mem_iff.1 hp) q (hperm.mem_iff.1 hq)
  canonical := by
    rintro a b l ⟨p, hp, ha⟩ ⟨q, hq, hb⟩
    exact h.canonical a b l ⟨p, hperm.mem_iff.1 hp, ha⟩ ⟨q, hperm.mem_iff.1 hq, hb⟩

theorem nodup (h : Independent tree w ps x f) : ps.Nodup := List.Nodup.of_map _ h.distinct

/-- Two of the link files are different files. -/
theorem locate_ne (h : Independent tree w ps x f) (hp : p ∈ ps) (hq : q ∈ ps) (hne : q ≠ p)
    {l : DiskLocation} (hl : w.files.locate w.folder (x p).link = .ok l) :
    w.files.locate w.folder (x q).link ≠ .ok l := fun hl' =>
  hne (List.inj_on_of_nodup_map h.distinct hq hp
    (h.canonical _ _ l ⟨q, hq, .inl rfl⟩ ⟨p, hp, .inl rfl⟩ hl' hl))

/-- A module is none of the link files. -/
theorem locate_module_ne {m : Path} (h : Independent tree w ps x f) (hp : p ∈ ps) (hq : q ∈ ps)
    (hm : Selects w.files w.folder tree (x p).link m) {l : DiskLocation}
    (hl : w.files.locate w.folder m = .ok l) : w.files.locate w.folder (x q).link ≠ .ok l := by
  intro hl'
  exact h.module p hp q hq m hm (h.canonical _ _ l ⟨p, hp, .inr hm⟩ ⟨q, hq, .inl rfl⟩ hl hl')

/-- Once some of the link files are processed, the outcome of another is the one it has alone. -/
theorem step (h : Independent tree w (done ++ p :: rest) x f)
    (hdone : Processes dryRun tree w done (done.map x) v) :
    ∃ v', exec (process dryRun tree p) v = (.ok (x p), v') := by
  have hp : p ∈ done ++ p :: rest := List.mem_append_right _ List.mem_cons_self
  obtain ⟨hlink, houtcome⟩ := outcomeOf_eq_ok_iff.1 (step_cases (h.alone p hp)).1.symm
  have hshape := hdone.sameShape
  have hentry {l : DiskLocation} (hl : ∀ q ∈ done, w.files.locate w.folder (x q).link ≠ .ok l) :
      v.files.entry? l = w.files.entry? l := by
    refine hdone.entry?_eq (.inr fun y hy hchanges => ?_)
    obtain ⟨q, hq, rfl⟩ := List.mem_map.1 hy
    exact hl q hq hchanges.located
  have hsame : outcomeOf v.files w.folder tree p = .ok (x p) := by
    refine outcomeOf_eq_ok_iff.2 ⟨by rw [← hshape.withoutLinks, hlink], ?_⟩
    rw [outcomeAt_congr ?_ ?_, houtcome]
    · refine hshape.read_eq fun l hl => hentry fun q hq =>
        h.locate_ne hp (List.mem_append_left _ hq) ?_ hl
      rintro rfl
      exact (List.nodup_append.1 h.nodup).2.2 _ hq _ List.mem_cons_self rfl
    · intro m hm
      exact hshape.read_eq fun l hl =>
        hentry fun q hq => h.locate_module_ne hp (List.mem_append_left _ hq) hm hl
  obtain ⟨v', hexec, -, -⟩ := exec_process dryRun tree p v
  rw [hdone.folder, hsame] at hexec
  exact ⟨v', hexec⟩

/-- The link files have the outcomes that they have alone. -/
theorem processes (h : Independent tree w ps x f) (dryRun : Bool) :
    ∃ v, Processes dryRun tree w ps (ps.map x) v := by
  have hrest (rest : List Path) : ∀ done v, done ++ rest = ps →
      Processes dryRun tree w done (done.map x) v →
      ∃ v', Processes dryRun tree w ps (ps.map x) v' := by
    induction rest with
    | nil =>
      rintro done v rfl hdone
      exact ⟨v, by rwa [List.append_nil]⟩
    | cons p rest ih =>
      rintro done v rfl hdone
      obtain ⟨v', hstep⟩ := h.step hdone
      refine ih (done ++ [p]) v' (by rw [List.append_assoc, List.singleton_append]) ?_
      rw [List.map_append]
      exact hdone.append (.cons hstep (.nil v'))
  exact hrest ps [] w rfl (.nil w)

/-- No other of the link files changes at the place of one. -/
theorem not_changes (h : Independent tree w ps x f) (hp : p ∈ ps) {l : DiskLocation}
    (hl : w.files.locate w.folder (x p).link = .ok l) {qs : List Path} (hqs : ∀ q ∈ qs, q ∈ ps)
    (hnot : p ∉ qs) : ∀ y ∈ qs.map x, ¬ y.Changes w.files w.folder l := by
  intro y hy hchanges
  obtain ⟨q, hq, rfl⟩ := List.mem_map.1 hy
  exact h.locate_ne hp (hqs q hq) (by rintro rfl; exact hnot hq) hl hchanges.located

/-- Each link file holds in the end what it holds when it is processed alone. -/
theorem read_eq (h : Independent tree w ps x f) (hdone : Processes false tree w ps (ps.map x) v)
    (hp : p ∈ ps) : v.files.read w.folder (x p).link = (f p).files.read w.folder (x p).link := by
  have halone : Processes false tree w [p] [x p] (f p) := .cons (h.alone p hp) (.nil _)
  refine (halone.sameShape.symm.trans hdone.sameShape).read_eq fun l hl => ?_
  rw [← halone.sameShape.locate] at hl
  by_cases hchanged : (x p).outcome.isChanged = true
  · obtain ⟨s, hs⟩ : ∃ s, (x p).outcome = .changed s := by
      cases ho : (x p).outcome with
      | changed s => exact ⟨s, rfl⟩
      | _ => simp [ho, Outcome.isChanged] at hchanged
    obtain ⟨done, rest, rfl⟩ := List.append_of_mem hp
    have hrest : p ∉ rest := (List.nodup_cons.1 (List.nodup_append.1 h.nodup).2.1).1
    rw [List.map_append, List.map_cons] at hdone
    rw [hdone.entry?_of_last_change hs hl (h.not_changes hp hl (by simp +contextual) hrest),
      entry?_of_change (h.alone p hp) hs hl]
  · have hnone : ∀ y ∈ ps.map x, ¬ y.Changes w.files w.folder l := by
      intro y hy hchanges
      obtain ⟨q, hq, rfl⟩ := List.mem_map.1 hy
      by_cases heq : q = p
      · subst heq
        exact hchanged hchanges.changed
      · exact h.locate_ne hp hq heq hl hchanges.located
    rw [hdone.entry?_eq (.inr hnone), halone.entry?_eq (.inr fun y hy => ?_)]
    rw [List.mem_singleton.1 hy]
    exact fun hchanges => hchanged hchanges.changed

end Independent

/-- Independent link files do not interfere, and a dry run predicts the others: in any order, each
has the outcome and holds in the end the bytes that it would alone, and a dry run gives the same
outcomes and leaves the files as they are. -/
theorem independent_links {tree : Node} {w : World} {ps : List Path} {x : Path → Processed}
    {f : Path → World} (h : Independent tree w ps x f) (qs : List Path) (hperm : qs.Perm ps) :
    (∃ v, exec (Batch.ofLinks false tree qs) w = (.ok ⟨qs.map x⟩, v) ∧
      ∀ p ∈ ps, v.files.read v.folder (x p).link = (f p).files.read (f p).folder (x p).link) ∧
    ∃ v, exec (Batch.ofLinks true tree qs) w = (.ok ⟨qs.map x⟩, v) ∧
      ∀ l, v.files.entry? l = w.files.entry? l := by
  have hqs := h.perm hperm
  constructor
  · obtain ⟨u, hdone⟩ := hqs.processes false
    obtain ⟨v, hexec, htold⟩ := exec_ofLinks_of_processes hdone
    refine ⟨v, hexec, fun p hp => ?_⟩
    rw [htold.files, htold.folder, hdone.folder, (step_cases (h.alone p hp)).2.1]
    exact hqs.read_eq hdone (hperm.mem_iff.2 hp)
  · obtain ⟨u, hdone⟩ := hqs.processes true
    obtain ⟨v, hexec, htold⟩ := exec_ofLinks_of_processes hdone
    exact ⟨v, hexec, fun l => by rw [htold.files, hdone.entry?_eq (.inl rfl)]⟩

/-! ## Two link files of one module -/

namespace TwoLinks

open Link.Sample

/-- Two link files, and their module. -/
def world : World where
  files := ⟨[(["A.lua"], .file (Utf8.encode "--\nreturn require(game.a)".toList)),
    (["B.lua"], .file (Utf8.encode "--\nreturn require(game.a)".toList)),
    (["a.lua"], .file (Utf8.encode "export type A<T,B=T>=T".toList))]⟩

def links : List Path := [.absolute ["A.lua"], .absolute ["B.lua"]]

variable {p : Path}

theorem plan_eq (p : Path) : (plan tree p (planAt p).chunk.source).result = .ok (planAt p) :=
  result_plan_eq_ok_iff.2 ⟨["game", "a"], ⟨.mk "a" "ModuleScript" [.absolute ["a.lua"]] [], [tree]⟩,
    parse_at p, rfl, rfl, rfl, rfl⟩

/-- A link file that was not updated changes, wherever it lies. -/
theorem outcomeOf_fresh {w : World} (hlink : w.files.withoutLinks w.folder p = .ok p)
    (hread : w.files.read w.folder p = .ok (Utf8.encode (planAt p).chunk.source))
    (hmodule : w.files.read w.folder (.absolute ["a.lua"]) = .ok (Utf8.encode module.source)) :
    outcomeOf w.files w.folder tree p = .ok ⟨p, .changed newText⟩ := by
  refine outcomeOf_eq_ok_iff.2 ⟨hlink, ?_⟩
  rw [outcomeAt_of_texts hread (plan_eq p) hmodule parse_module]
  exact congrArg Except.ok (outcome_at p)

theorem links_cases (hp : p ∈ links) : p = .absolute ["A.lua"] ∨ p = .absolute ["B.lua"] := by
  simpa [links] using hp

theorem read_link (hp : p ∈ links) :
    world.files.read world.folder p = .ok (Utf8.encode (planAt p).chunk.source) := by
  obtain rfl | rfl := links_cases hp
  · exact FileSystem.read_eq_ok_iff.2 ⟨["A.lua"], eq_ok_of_toOption (by decide), rfl⟩
  · exact FileSystem.read_eq_ok_iff.2 ⟨["B.lua"], eq_ok_of_toOption (by decide), rfl⟩

theorem outcomeOf_eq (hp : p ∈ links) :
    outcomeOf world.files world.folder tree p = .ok ⟨p, .changed newText⟩ := by
  have hlink : ∀ p ∈ links, (world.files.withoutLinks world.folder p).toOption = some p := by
    decide
  exact outcomeOf_fresh (eq_ok_of_toOption (hlink p hp)) (read_link hp)
    (FileSystem.read_eq_ok_iff.2 ⟨["a.lua"], eq_ok_of_toOption (by decide), rfl⟩)

theorem independent : Independent tree world links (⟨·, .changed newText⟩) fun p =>
    (exec (process false tree p : ExceptT Crash (StateM World) Processed) world).2 := by
  have hmodule {p m : Path} (hp : p ∈ links) (hm : Selects world.files world.folder tree p m) :
      m = .absolute ["a.lua"] := hm.eq_module (read_link hp) (plan_eq p)
  constructor
  · intro p hp
    obtain ⟨w', h, -, -⟩ := exec_process false tree p world
    rw [h, outcomeOf_eq hp]
  · decide
  · rintro p hp q hq m hm rfl
    have hq' := hmodule hp hm
    obtain rfl | rfl := links_cases hq <;> exact absurd hq' (by decide)
  · refine FileSystem.namesOnce_of_located fun a ⟨p, hp, ha⟩ => ?_
    rcases ha with rfl | hm
    · obtain rfl | rfl := links_cases hp <;>
        exact ⟨_, rfl, eq_ok_of_toOption (by decide)⟩
    · exact ⟨_, hmodule hp hm, hmodule hp hm ▸ eq_ok_of_toOption (by decide)⟩

end TwoLinks

open TwoLinks in
open Link.Sample (tree newText) in
/-- The second link file comes first. -/
theorem independent_links_reversed :
    (∃ v, exec (Batch.ofLinks false tree [.absolute ["B.lua"], .absolute ["A.lua"]]) world =
        (.ok ⟨[⟨.absolute ["B.lua"], .changed newText⟩, ⟨.absolute ["A.lua"], .changed newText⟩]⟩,
          v)) ∧
      ∃ v, exec (Batch.ofLinks true tree [.absolute ["B.lua"], .absolute ["A.lua"]]) world =
          (.ok ⟨[⟨.absolute ["B.lua"], .changed newText⟩, ⟨.absolute ["A.lua"], .changed newText⟩]⟩,
            v) ∧
        ∀ l, v.files.entry? l = world.files.entry? l := by
  obtain ⟨⟨v, hwet, -⟩, hdry⟩ := independent_links independent
    [.absolute ["B.lua"], .absolute ["A.lua"]] (List.Perm.swap _ _ _)
  exact ⟨⟨v, hwet⟩, hdry⟩

/-! ## One file under two canonical paths -/

namespace TwoSpellings

open TwoLinks (outcomeOf_fresh)
open Link.Sample (tree planAt newText)

/-- A link file in a folder with an accented letter, and its module. -/
def world : World where
  files := ⟨[(["Pé"], .folder),
    (["Pé", "A.lua"], .file (Utf8.encode "--\nreturn require(game.a)".toList)),
    (["a.lua"], .file (Utf8.encode "export type A<T,B=T>=T".toList))]⟩

/-- The link file, with the letter and with a code point for each of the bytes of the letter. -/
def links : List Path :=
  [.absolute ["Pé", "A.lua"],
    .absolute [[CodePoint.ofChar 'P', Text.looseByte 0xC3, Text.looseByte 0xA9], "A.lua"]]

variable {p : Path}

theorem read_link (hp : p ∈ links) :
    world.files.read world.folder p = .ok (Utf8.encode (planAt p).chunk.source) := by
  have hlocate : ∀ p ∈ links,
      (world.files.locate world.folder p).toOption = some (["Pé", "A.lua"] : DiskLocation) := by
    decide
  exact FileSystem.read_eq_ok_iff.2 ⟨_, eq_ok_of_toOption (hlocate p hp), rfl⟩

/-- Alone, the link file changes under either path. -/
theorem outcomeOf_eq (hp : p ∈ links) :
    outcomeOf world.files world.folder tree p = .ok ⟨p, .changed newText⟩ := by
  have hlink : ∀ p ∈ links, (world.files.withoutLinks world.folder p).toOption = some p := by
    decide
  exact outcomeOf_fresh (eq_ok_of_toOption (hlink p hp)) (read_link hp)
    (FileSystem.read_eq_ok_iff.2 ⟨["a.lua"], eq_ok_of_toOption (by decide), rfl⟩)

end TwoSpellings

open TwoSpellings in
open Link.Sample (tree newText) in
/-- A file that has two canonical paths changes under each of them alone. Where it is processed under
both, it has changed before it is met under the second one, and is unchanged then. -/
theorem second_spelling_unchanged :
    exec (tree.canonicalize (.absolute [])) world = (Except.ok tree, world) ∧
      (∀ p ∈ links, ∃ v, exec (process false tree p) world =
        (Except.ok ⟨p, .changed newText⟩, v)) ∧
      links.Nodup ∧
      (∀ p ∈ links, ∀ q ∈ links, ∀ m, Selects world.files world.folder tree p m → m ≠ q) ∧
      ∃ b v, exec (Batch.ofLinks false tree links) world = (.ok b, v) ∧
        b.processed.map (·.link) = links ∧ b.outcomes.map Outcome.isChanged = [true, false] := by
  have hcanonical : exec (tree.canonicalize (.absolute [])) world = (Except.ok tree, world) := by
    cbv
  have hrun : (exec (Batch.ofLinks false tree links) world).1.toOption.any (fun b =>
      b.processed.map (·.link) = links ∧ b.outcomes.map Outcome.isChanged = [true, false]) =
        true := by
    decide +kernel
  obtain ⟨b, hb, hends⟩ := Luau.exists_ok_of_any hrun
  obtain ⟨hlinks, houtcomes⟩ := of_decide_eq_true hends
  refine ⟨hcanonical, fun p hp => ?_, by decide, fun p hp q hq m hm hmq => ?_, ?_⟩
  · obtain ⟨v, hstep, -, -⟩ := exec_process false tree p world
    rw [outcomeOf_eq hp] at hstep
    exact ⟨v, hstep⟩
  · have hne : ∀ q ∈ links, Path.absolute ["a.lua"] ≠ q := by decide
    exact hne q hq ((hm.eq_module (read_link hp) (TwoLinks.plan_eq p)).symm.trans hmq)
  · rcases hexec : exec (Batch.ofLinks false tree links) world with ⟨r, v⟩
    rw [hexec] at hb
    obtain rfl : r = .ok b := hb
    exact ⟨b, v, rfl, hlinks, houtcomes⟩

end TypedLinks
