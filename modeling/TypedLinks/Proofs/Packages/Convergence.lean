import TypedLinks.Proofs.Link.FixedPoint
import TypedLinks.Proofs.Packages.Completeness
import TypedLinks.Proofs.Packages.Frame

/-!
# Running twice

A link file is settled if it is left as it is when it is processed. Processing settles a link file,
if the text that is written is written again, also where the link file is its own module, and a link
file stays settled while others change, unless one of these is its module. So a second run changes
nothing, if in the first one no link file changes that is the module of a link file before it.
-/

namespace TypedLinks

open World Link

/-- Whether the link file at a canonical path is left as it is. -/
def Settled (tree : Node) (w : World) (link : Path) : Prop :=
  outcomeAt w.files w.folder tree link = .ok .unchanged

section Step

variable {tree : Node} {p a m : Path} {w w' : World} {x : Processed}

/-! ## One link file -/

theorem outcomeAt_of_step (h : exec (process false tree p) w = (.ok x, w')) :
    outcomeAt w.files w.folder tree x.link = .ok x.outcome :=
  (outcomeOf_eq_ok_iff.1 (step_cases h).1.symm).2

theorem Settled.not_isChanged (h : Settled tree w x.link)
    (hstep : exec (process false tree p) w = (.ok x, w')) : x.outcome.isChanged = false := by
  have houtcome := outcomeAt_of_step hstep
  rw [h] at houtcome
  rw [← Except.ok.inj houtcome]
  rfl

/-- What a link file that changes was, and what it is now. -/
theorem change_cases (h : exec (process false tree p) w = (.ok x, w'))
    (hx : x.outcome.isChanged = true) :
    ∃ source plan module, sourceOf x.link (w.files.read w.folder x.link) = .ok source ∧
      Finds w.files w.folder tree x.link source plan module ∧ module.exports ≠ [] ∧
      w'.files.read w'.folder x.link = .ok (Utf8.encode (plan.render module.exports)) := by
  obtain ⟨s, hs⟩ : ∃ s, x.outcome = .changed s := by
    cases ho : x.outcome with
    | changed s => exact ⟨s, rfl⟩
    | _ => simp [ho, Outcome.isChanged] at hx
  have hproblem : x.outcome.problem? = none := by
    rw [hs]
    rfl
  obtain ⟨source, hsource, hupdated⟩ := exists_source (outcomeAt_of_step h) hproblem
  obtain ⟨plan, module, hfinds, houtcome⟩ := exists_finds hupdated hproblem
  obtain ⟨hexports, hrender, -⟩ := Plan.outcome_eq_changed_iff.1 (houtcome.symm.trans hs)
  exact ⟨source, plan, module, hsource, hfinds, hexports, by rw [read_of_change h hs, hrender]⟩

/-- A link file that is settled stays so, unless its module changes. -/
theorem Settled.step (h : Settled tree w a) (hstep : exec (process false tree p) w = (.ok x, w'))
    (hlink : w.files.SameFile w.folder a x.link → a = x.link)
    (hmodule : x.outcome.isChanged = true → ∀ m, Selects w.files w.folder tree a m →
      ¬w.files.SameFile w.folder m x.link) : Settled tree w' a := by
  have hfolder : w'.folder = w.folder := (step_cases hstep).2.1
  have hread {b : Path} (hb : x.outcome.isChanged = true → ¬w.files.SameFile w.folder b x.link) :
      w'.files.read w.folder b = w.files.read w.folder b := by
    have hsame := (Processes.cons hstep (.nil w')).read_eq (a := b) (by simpa using hb)
    rwa [hfolder] at hsame
  unfold Settled
  rw [hfolder, outcomeAt_congr (hread ?_) fun m hm => hread fun hx => hmodule hx m hm]
  · exact h
  · intro hx hsame
    obtain rfl := hlink hsame
    rw [h.not_isChanged hstep] at hx
    cases hx

section Stable

variable (h : exec (process false tree p) w = (.ok x, w'))
  (hstable : x.outcome.isChanged = true → ∀ source plan module,
    sourceOf x.link (w.files.read w.folder x.link) = .ok source →
      Finds w.files w.folder tree x.link source plan module → plan.Stable module)

include h hstable

/-- A link file that was processed is settled. -/
theorem settled_of_step (hx : x.outcome.problem? = none) : Settled tree w' x.link := by
  by_cases hchanged : x.outcome.isChanged = true
  · obtain ⟨source, plan, module, hsource, hfinds, hexports, hread⟩ := change_cases h hchanged
    obtain ⟨hopen, happlicable, hbreaks⟩ := hstable hchanged source plan module hsource hfinds
    unfold Settled outcomeAt
    rw [hread, sourceOf_encode]
    by_cases hself : w.files.SameFile w.folder plan.module x.link
    · have hself' : w'.files.SameFile w'.folder plan.module x.link := by
        rwa [(step_cases h).2.1, ← (step_cases h).2.2.sameShape.sameFile]
      exact hfinds.unchanged_of_self hexports hopen happlicable hbreaks (hself'.read_eq_ok hread)
    · have hsame : w'.files.read w'.folder plan.module = w.files.read w.folder plan.module := by
        refine (Processes.cons h (.nil w')).read_eq ?_
        simpa using fun _ => hself
      exact (hfinds.unchanged_iff hexports hopen hsame).2 ⟨happlicable, hbreaks⟩
  · have hunchanged : x.outcome = .unchanged := by
      cases ho : x.outcome with
      | unchanged => rfl
      | changed s => simp [ho, Outcome.isChanged] at hchanged
      | failed p => simp [ho, Outcome.problem?] at hx
    obtain ⟨-, hfolder, heffect⟩ := step_cases h
    unfold Settled
    rw [hfolder, heffect.files_eq (.inr (Bool.eq_false_iff.2 hchanged)), outcomeAt_of_step h,
      hunchanged]

/-- The module of a link file is the one that it was. -/
theorem selects_of_step (hlink : w.files.SameFile w.folder a x.link → a = x.link)
    (hm : Selects w'.files w'.folder tree a m) : Selects w.files w.folder tree a m := by
  by_cases hwritten : x.outcome.isChanged = true ∧ w.files.SameFile w.folder a x.link
  · obtain ⟨hchanged, hsame⟩ := hwritten
    obtain rfl := hlink hsame
    obtain ⟨source, plan, module, hsource, hfinds, hexports, hread⟩ := change_cases h hchanged
    obtain ⟨hopen, happlicable, -⟩ := hstable hchanged source plan module hsource hfinds
    obtain ⟨chunk, call, hparse, hdecodes⟩ := (plan_parsed hfinds.plan).1.exists_decodes
      (Path.text_ne_nil _) hfinds.module.parse hexports hopen happlicable
    rw [hm.eq_module hread (plan_again hfinds.plan hparse hdecodes)]
    exact ⟨source, plan, hsource, hfinds.plan, rfl⟩
  · refine hm.congr ((Processes.cons h (.nil w')).read_eq ?_).symm
    simpa using fun hx hsame => hwritten ⟨hx, hsame⟩

end Stable

end Step

/-! ## Several link files -/

/-- What a link file was given as its module: the chunk that the module holds in the end, or the one
that it held at the start if the link file is its own module. -/
def Gives (w w' : World) (link m : Path) (module : Luau.Chunk) : Prop :=
  (w.files.SameFile w.folder m link ∧ Holds w.files w.folder m module) ∨
    (¬w.files.SameFile w.folder m link ∧ Holds w'.files w'.folder m module)

/-- Link files that were processed in an order that settles them: no link file changes that is the
module of one before it, and what is written into a link file is written again. -/
structure Orderly (tree : Node) (w w' : World) (xs : List Processed) : Prop where
  canonical : w.files.NamesOnce w.folder fun a => ∃ x ∈ xs, a = x.link
  order : ∀ ys x zs, xs = ys ++ x :: zs → x.outcome.isChanged = true → ∀ y ∈ ys,
    ∀ m, Selects w.files w.folder tree y.link m → ¬w.files.SameFile w.folder m x.link
  stable : ∀ x ∈ xs, x.outcome.isChanged = true → ∀ source q module,
    sourceOf x.link (w.files.read w.folder x.link) = .ok source →
      (plan tree x.link source).result = .ok q →
        Gives w w' x.link q.module module → q.Stable module

/-- What holds after some of the link files: they are settled, and no link file has another module
than at the start. -/
structure Converging (tree : Node) (w u : World) (ys zs : List Processed) : Prop where
  settled : ∀ y ∈ ys, Settled tree u y.link
  module : ∀ y ∈ ys ++ zs, ∀ m, Selects u.files u.folder tree y.link m →
    Selects w.files w.folder tree y.link m

section Run

variable {tree : Node} {w w' u u' : World} {x : Processed} {xs ys zs : List Processed} {p : Path}
  {ps qs : List Path}

/-- A link file that changes was not processed before: under any path of it, it was as it had been at
the start. -/
theorem Converging.read_eq (h : Converging tree w u ys (x :: zs))
    (horderly : Orderly tree w w' (ys ++ x :: zs)) (hdone : Processes false tree w ps ys u)
    (hstep : exec (process false tree p) u = (.ok x, u')) (hx : x.outcome.isChanged = true) {a : Path}
    (ha : ∀ l, w.files.locate w.folder a = .ok l → w.files.locate w.folder x.link = .ok l) :
    u.files.read u.folder a = w.files.read w.folder a := by
  refine hdone.read_eq fun y hy _ hsame => ?_
  obtain ⟨l, hl, hl'⟩ := hsame
  have heq : x.link = y.link := horderly.canonical _ _ l
    ⟨x, List.mem_append_right _ List.mem_cons_self, rfl⟩ ⟨y, List.mem_append_left _ hy, rfl⟩
    (ha l hl) hl'
  rw [Settled.not_isChanged (heq ▸ h.settled y hy) hstep] at hx
  cases hx

/-- The module of a link file, if it is another file, is not changed by it, or after it. -/
theorem Orderly.read_module (horderly : Orderly tree w w' (ys ++ x :: zs))
    (hdone : Processes false tree w ps ys u) (hrest : Processes false tree u qs (x :: zs) w')
    {m : Path} (hm : Selects w.files w.folder tree x.link m)
    (hother : ¬w.files.SameFile w.folder m x.link) :
    w'.files.read w'.folder m = u.files.read u.folder m := by
  refine hrest.read_eq fun z hz hchanged => ?_
  rw [hdone.folder, ← hdone.sameShape.sameFile]
  rcases List.mem_cons.1 hz with rfl | hz
  · exact hother
  · obtain ⟨before, after, rfl⟩ := List.append_of_mem hz
    exact horderly.order (ys ++ x :: before) z after (by rw [List.append_assoc, List.cons_append])
      hchanged x (List.mem_append_right _ List.mem_cons_self) m hm

/-- A link file that changes is given its module as it is at the end of the run, or as it was at the
start if the link file is its own module. -/
theorem Converging.gives (h : Converging tree w u ys (x :: zs))
    (horderly : Orderly tree w w' (ys ++ x :: zs)) (hdone : Processes false tree w ps ys u)
    (hstep : exec (process false tree p) u = (.ok x, u')) (hrest : Processes false tree u' qs zs w')
    (hx : x.outcome.isChanged = true) {m : Path} (hm : Selects w.files w.folder tree x.link m)
    {module : Luau.Chunk} (hmodule : Holds u.files u.folder m module) :
    Gives w w' x.link m module := by
  by_cases hself : w.files.SameFile w.folder m x.link
  · refine .inl ⟨hself, hmodule.congr (h.read_eq horderly hdone hstep hx fun l hl => ?_).symm⟩
    obtain ⟨k, hk, hk'⟩ := hself
    obtain rfl := Except.ok.inj (hk.symm.trans hl)
    exact hk'
  · exact .inr ⟨hself, hmodule.congr (horderly.read_module hdone (.cons hstep hrest) hm hself)⟩

theorem Converging.step (h : Converging tree w u ys (x :: zs))
    (horderly : Orderly tree w w' (ys ++ x :: zs)) (hdone : Processes false tree w ps ys u)
    (hstep : exec (process false tree p) u = (.ok x, u')) (hrest : Processes false tree u' qs zs w')
    (hx : x.outcome.problem? = none) : Converging tree w u' (ys ++ [x]) zs := by
  have hsplit : (ys ++ [x]) ++ zs = ys ++ x :: zs := by rw [List.append_assoc, List.singleton_append]
  have hlast : x ∈ ys ++ x :: zs := List.mem_append_right _ List.mem_cons_self
  have hsame {a b : Path} : u.files.SameFile u.folder a b ↔ w.files.SameFile w.folder a b := by
    rw [hdone.folder, hdone.sameShape.sameFile]
  have hlink {y : Processed} (hy : y ∈ ys ++ x :: zs)
      (hfile : u.files.SameFile u.folder y.link x.link) : y.link = x.link := by
    obtain ⟨l, hl, hl'⟩ := hsame.1 hfile
    exact horderly.canonical _ _ l ⟨y, hy, rfl⟩ ⟨x, hlast, rfl⟩ hl hl'
  have hmodule (hchanged : x.outcome.isChanged = true) {y : Processed} (hy : y ∈ ys) (m : Path)
      (hm : Selects u.files u.folder tree y.link m) : ¬u.files.SameFile u.folder m x.link := by
    rw [hsame]
    exact horderly.order ys x zs rfl hchanged y hy m (h.module y (List.mem_append_left _ hy) m hm)
  have hstable (hchanged : x.outcome.isChanged = true) (source : List Char) (plan : Plan)
      (module : Luau.Chunk) (hsource : sourceOf x.link (u.files.read u.folder x.link) = .ok source)
      (hfinds : Finds u.files u.folder tree x.link source plan module) : plan.Stable module := by
    rw [h.read_eq horderly hdone hstep hchanged fun _ hl => hl] at hsource
    refine horderly.stable x hlast hchanged source plan module hsource hfinds.plan ?_
    exact h.gives horderly hdone hstep hrest hchanged ⟨source, plan, hsource, hfinds.plan, rfl⟩
      hfinds.module
  constructor
  · intro y hy
    rcases List.mem_append.1 hy with hbefore | hy'
    · exact (h.settled y hbefore).step hstep (hlink (List.mem_append_left _ hbefore))
        fun hchanged => hmodule hchanged hbefore
    · obtain rfl := List.mem_singleton.1 hy'
      exact settled_of_step hstep hstable hx
  · intro y hy m hm
    rw [hsplit] at hy
    exact h.module y hy m (selects_of_step hstep hstable (hlink hy) hm)

/-- Link files that were processed in an orderly way are settled. -/
theorem Orderly.settled (horderly : Orderly tree w w' xs) (h : Processes false tree w ps xs w')
    (hx : ∀ x ∈ xs, x.outcome.problem? = none) : ∀ x ∈ xs, Settled tree w' x.link := by
  have hrest (zs : List Processed) : ∀ ys before after u, xs = ys ++ zs →
      Processes false tree w before ys u → Processes false tree u after zs w' →
        Converging tree w u ys zs → ∀ x ∈ xs, Settled tree w' x.link := by
    induction zs with
    | nil =>
      rintro ys before after u rfl hdone hlast hconverging
      cases hlast
      simpa using hconverging.settled
    | cons x zs ih =>
      rintro ys before after u rfl hdone hlast hconverging
      cases hlast with
      | cons first others =>
        refine ih (ys ++ [x]) _ _ _ (by rw [List.append_assoc, List.singleton_append])
          (hdone.append (.cons first (.nil _))) others ?_
        exact hconverging.step horderly hdone first others (hx x (by simp))
  exact hrest xs [] [] ps w rfl (.nil w) h ⟨by simp, fun _ _ _ hm => hm⟩

/-- The link files of a folder are found again. -/
theorem discover_again {folder : Path} {links : List Path} (h : Processes false tree w ps xs u)
    (htold : Tells u w') (hdiscover : exec (Packages.discover folder) w = (.ok links, w)) :
    exec (Packages.discover folder) w' = (.ok links, w') := by
  have hasks := Packages.asks_discover folder
  refine Prod.ext ?_ (hasks.still w')
  rw [← hasks.same w w' (htold.files ▸ h.sameShape) (htold.folder.trans h.folder), hdiscover]

/-- Link files that are settled are left as they are, one after the other. -/
theorem processes_of_settled {tree : Node} {w u : World} {ps : List Path} {xs : List Processed}
    (hlinks : List.Forall₂ (fun p x => w.files.withoutLinks w.folder p = .ok x.link) ps xs)
    (hsettled : ∀ x ∈ xs, Settled tree w x.link) (hfiles : u.files = w.files)
    (hfolder : u.folder = w.folder) :
    ∃ ys v, Processes false tree u ps ys v ∧ v.files = w.files ∧
      ∀ y ∈ ys, y.outcome = .unchanged := by
  induction hlinks generalizing u with
  | nil => exact ⟨[], u, .nil u, hfiles, by simp⟩
  | @cons p x ps xs hlink _ ih =>
    rw [List.forall_mem_cons] at hsettled
    have houtcome : outcomeOf u.files u.folder tree p = .ok ⟨x.link, .unchanged⟩ := by
      rw [hfiles, hfolder]
      exact outcomeOf_eq_ok_iff.2 ⟨hlink, hsettled.1⟩
    obtain ⟨u', hstep, hfolder', heffect⟩ := exec_process false tree p u
    rw [houtcome] at hstep heffect
    obtain ⟨ys, v, hrest, hv, hys⟩ := ih hsettled.2 ((heffect.files_eq (.inr rfl)).trans hfiles)
      (hfolder'.trans hfolder)
    exact ⟨_ :: ys, v, .cons hstep hrest, hv, List.forall_mem_cons.2 ⟨rfl, hys⟩⟩

end Run

theorem Orderly.congr {tree : Node} {w v v' : World} {xs : List Processed}
    (h : Orderly tree w v xs) (hfiles : v'.files = v.files) (hfolder : v'.folder = v.folder) :
    Orderly tree w v' xs where
  canonical := h.canonical
  order := h.order
  stable x hx hchanged source q module hsource hplan hgives :=
    h.stable x hx hchanged source q module hsource hplan (by rwa [Gives, hfiles, hfolder] at hgives)

/-- A second run changes nothing, if no link file failed in the first one, and it was orderly. -/
theorem second_run_unchanged {tree : Node} {folder : Path} {w w' : World} {b : Batch}
    (h : exec (Batch.run false tree folder) w = (.ok b, w')) (hb : b.succeeded = true)
    (horderly : Orderly tree w w' b.processed) :
    ∃ b' w'', exec (Batch.run false tree folder) w' = (.ok b', w'') ∧
      (∀ o ∈ b'.outcomes, o = .unchanged) ∧ w''.files = w'.files := by
  rcases run_cases h with
    ⟨stop, -, hr, -⟩ | ⟨links, hdiscover, ⟨xs, v, hdone, htold, hr⟩ | ⟨xs, c, -, hr⟩⟩
  · cases hr
  · cases hr
    have hsettled := (horderly.congr htold.files.symm htold.folder.symm).settled hdone
      (List.forall_mem_map.1 ((Batch.succeeded_iff _).1 hb))
    have hlinks : List.Forall₂ (fun p x => v.files.withoutLinks v.folder p = .ok x.link) links xs :=
      hdone.links.imp fun p x hp => by
        rw [hdone.folder, ← hdone.sameShape.withoutLinks]
        exact hp
    obtain ⟨ys, v', hagain, hfiles, hys⟩ :=
      processes_of_settled hlinks hsettled htold.files htold.folder
    have hfound := discover_again hdone htold hdiscover
    obtain ⟨w'', hrun, htold'⟩ := exec_run_of_processes hfound hagain
    exact ⟨⟨ys⟩, w'', hrun, List.forall_mem_map.2 hys,
      htold'.files.trans (hfiles.trans htold.files.symm)⟩
  · cases hr

/-! ## A link file that requires another one -/

namespace Chain

open Link.Sample (planAt parse_at module parse_module)

/-- The link file in the folder. -/
def outer : Path := .absolute ["P", "A.lua"]

/-- The link file in the index. -/
def inner : Path := .absolute ["P", "_Index", "q", "B.lua"]

/-- The file of the module. -/
def file : Path := .absolute ["a.lua"]

/-- Two link files and a module. -/
def world : World where
  files := ⟨[(["P"], .folder), (["P", "A.lua"], .file (Utf8.encode "return require(game.B)".toList)),
    (["P", "_Index"], .folder), (["P", "_Index", "q"], .folder),
    (["P", "_Index", "q", "B.lua"], .file (Utf8.encode "--\nreturn require(game.a)".toList)),
    (["a.lua"], .file (Utf8.encode "export type A<T,B=T>=T".toList))]⟩

/-- The sourcemap in which the link file in the folder requires a first file, and the one in the index
a second one. -/
def treeOf (first second : Path) : Node :=
  .mk "Root" "Folder" [] [.mk "B" "ModuleScript" [first] [], .mk "a" "ModuleScript" [second] []]

/-- The plan of the link file in the folder. -/
def outerPlan (module : Path) : Plan :=
  let call : Luau.Expression := .call ⟨⟨7, 1, 8⟩, ⟨22, 1, 23⟩⟩
    (.name ⟨⟨7, 1, 8⟩, ⟨14, 1, 15⟩⟩ "require".toList)
    [.field ⟨⟨15, 1, 16⟩, ⟨21, 1, 22⟩⟩ (.name ⟨⟨15, 1, 16⟩, ⟨19, 1, 20⟩⟩ "game".toList) "B".toList]
    .parentheses
  ⟨⟨outer.text, "return require(game.B)".toList,
    ⟨[], some ⟨⟨.start, ⟨22, 1, 23⟩⟩, [call]⟩⟩⟩, call, module⟩

/-- The plan of the link file in the index. -/
def innerPlan (module : Path) : Plan := { planAt inner with module := module }

theorem locate_outer : world.files.locate world.folder outer = .ok ["P", "A.lua"] :=
  eq_ok_of_toOption (by decide)

theorem locate_inner : world.files.locate world.folder inner = .ok ["P", "_Index", "q", "B.lua"] :=
  eq_ok_of_toOption (by decide)

theorem locate_file : world.files.locate world.folder file = .ok ["a.lua"] :=
  eq_ok_of_toOption (by decide)

theorem outer_ne_inner : ¬world.files.SameFile world.folder outer inner :=
  FileSystem.not_sameFile locate_outer locate_inner (by decide)

theorem file_ne_outer : ¬world.files.SameFile world.folder file outer :=
  FileSystem.not_sameFile locate_file locate_outer (by decide)

theorem file_ne_inner : ¬world.files.SameFile world.folder file inner :=
  FileSystem.not_sameFile locate_file locate_inner (by decide)

theorem withoutLinks_outer : world.files.withoutLinks world.folder outer = .ok outer :=
  eq_ok_of_toOption (by decide)

theorem withoutLinks_inner : world.files.withoutLinks world.folder inner = .ok inner :=
  eq_ok_of_toOption (by decide)

variable {m : Path}

theorem read_outer (m : Path) :
    world.files.read world.folder outer = .ok (Utf8.encode (outerPlan m).chunk.source) :=
  FileSystem.read_eq_ok_iff.2 ⟨_, locate_outer, rfl⟩

theorem read_inner (m : Path) :
    world.files.read world.folder inner = .ok (Utf8.encode (innerPlan m).chunk.source) :=
  FileSystem.read_eq_ok_iff.2 ⟨_, locate_inner, rfl⟩

theorem read_file : world.files.read world.folder file = .ok (Utf8.encode module.source) :=
  FileSystem.read_eq_ok_iff.2 ⟨_, locate_file, rfl⟩

theorem parse_outer : Luau.parse outer.text (outerPlan m).chunk.source = .ok (outerPlan m).chunk := by
  have hfile : (Luau.parse outer.text (outerPlan file).chunk.source).toOption =
      some (outerPlan file).chunk := by
    decide +kernel
  exact eq_ok_of_toOption hfile

variable {first second : Path}

theorem plan_outer (second : Path)
    (h : (Node.mk "B" "ModuleScript" [first] []).moduleFile? = some first) :
    (plan (treeOf first second) outer (outerPlan first).chunk.source).result =
      .ok (outerPlan first) :=
  result_plan_eq_ok_iff.2 ⟨["game", "B"], ⟨.mk "B" "ModuleScript" [first] [], [treeOf first second]⟩,
    parse_outer, rfl, rfl, rfl, h⟩

theorem plan_inner (first : Path)
    (h : (Node.mk "a" "ModuleScript" [second] []).moduleFile? = some second) :
    (plan (treeOf first second) inner (innerPlan second).chunk.source).result =
      .ok (innerPlan second) :=
  result_plan_eq_ok_iff.2 ⟨["game", "a"], ⟨.mk "a" "ModuleScript" [second] [], [treeOf first second]⟩,
    parse_at inner, rfl, rfl, rfl, h⟩

theorem stable_outer {chunk : Luau.Chunk}
    (h : (forwardAll chunk.exports).all Declaration.isPlain = true) : (outerPlan m).Stable chunk :=
  Plan.stable_of_isPlain rfl rfl h

theorem stable_inner {chunk : Luau.Chunk}
    (h : (forwardAll chunk.exports).all Declaration.isPlain = true) : (innerPlan m).Stable chunk :=
  Plan.stable_of_isPlain rfl rfl h

theorem isPlain_module : (forwardAll module.exports).all Declaration.isPlain = true := by decide

theorem discover_world : exec (Packages.discover (.absolute ["P"])) world =
    (.ok [outer, inner], world) := by cbv

/-! ### In order -/

/-- The link file in the folder requires the module, and the one in the index requires it. -/
def ordered : Node := treeOf file outer

theorem plan_outer_ordered : (plan ordered outer (outerPlan file).chunk.source).result =
    .ok (outerPlan file) := plan_outer outer rfl

theorem plan_inner_ordered : (plan ordered inner (innerPlan outer).chunk.source).result =
    .ok (innerPlan outer) := plan_inner file rfl

/-- The link file in the folder, once it was updated. -/
def outerText : List Char := (outerPlan file).render module.exports

theorem outcomeOf_outer_ordered : outcomeOf world.files world.folder ordered outer =
    .ok ⟨outer, .changed outerText⟩ := by
  refine outcomeOf_eq_ok_iff.2 ⟨withoutLinks_outer, ?_⟩
  rw [outcomeAt_of_texts (read_outer _) plan_outer_ordered read_file parse_module]
  exact congrArg Except.ok (Plan.outcome_of_fresh rfl (List.cons_ne_nil _ _))

theorem exists_outerChunk : ∃ chunk, Luau.parse outer.text outerText = .ok chunk ∧
    chunk.exports ≠ [] ∧ (forwardAll chunk.exports).all Declaration.isPlain = true := by
  obtain ⟨chunk, call, hparse, hdecodes⟩ := (plan_parsed plan_outer_ordered).1.exists_decodes
    (Path.text_ne_nil outer) parse_module (List.cons_ne_nil _ _)
    (stable_outer isPlain_module).keepsOpen
    rfl
  refine ⟨chunk, hparse, fun hnil => ?_, hdecodes.all_isPlain isPlain_module⟩
  have hexports := hdecodes.exports
  rw [hnil] at hexports
  cases hexports

/-- Both link files change in the first run, the second one with the types that the first one has been
given. -/
theorem first_run_ordered {chunk : Luau.Chunk} (hparse : Luau.parse outer.text outerText = .ok chunk)
    (hexports : chunk.exports ≠ []) : ∃ v, Processes false ordered world [outer, inner]
      [⟨outer, .changed outerText⟩,
        ⟨inner, .changed ((innerPlan outer).render chunk.exports)⟩] v := by
  obtain ⟨u, houter, hfolder, heffect⟩ := exec_process false ordered outer world
  rw [outcomeOf_outer_ordered] at houter heffect
  have hread : u.files.read u.folder outer = .ok (Utf8.encode outerText) := read_of_change houter rfl
  have hinner : u.files.read u.folder inner = world.files.read world.folder inner := by
    refine (Processes.cons houter (.nil u)).read_eq fun x hx _ => ?_
    rw [List.mem_singleton.1 hx]
    exact FileSystem.not_sameFile locate_inner locate_outer (by decide)
  have houtcome : outcomeOf u.files u.folder ordered inner =
      .ok ⟨inner, .changed ((innerPlan outer).render chunk.exports)⟩ := by
    refine outcomeOf_eq_ok_iff.2 ⟨?_, ?_⟩
    · rw [hfolder, ← heffect.sameShape.withoutLinks, withoutLinks_inner]
    · rw [outcomeAt_of_texts (hinner.trans (read_inner _)) plan_inner_ordered hread hparse]
      exact congrArg Except.ok (Plan.outcome_of_fresh rfl hexports)
  obtain ⟨v, hstep, -, -⟩ := exec_process false ordered inner u
  rw [houtcome] at hstep
  exact ⟨v, .cons houter (.cons hstep (.nil v))⟩

/-- The second link file leaves the first one as it was updated. -/
theorem read_outer_of_processes {s : List Char} {v : World}
    (hdone : Processes false ordered world [outer, inner]
      [⟨outer, .changed outerText⟩, ⟨inner, .changed s⟩] v) :
    v.files.read v.folder outer = .ok (Utf8.encode outerText) := by
  cases hdone with
  | cons houter hrest =>
    rw [hrest.read_eq, read_of_change houter rfl]
    obtain ⟨-, hfolder, heffect⟩ := step_cases houter
    intro x hx _
    rw [List.mem_singleton.1 hx, hfolder, ← heffect.sameShape.sameFile]
    exact outer_ne_inner

theorem orderly {chunk : Luau.Chunk} (hparse : Luau.parse outer.text outerText = .ok chunk)
    (hplain : (forwardAll chunk.exports).all Declaration.isPlain = true) {s : List Char} {v : World}
    (hdone : Processes false ordered world [outer, inner]
      [⟨outer, .changed outerText⟩, ⟨inner, .changed s⟩] v) :
    Orderly ordered world v [⟨outer, .changed outerText⟩, ⟨inner, .changed s⟩] := by
  constructor
  · refine FileSystem.namesOnce_of_located ?_
    rintro p ⟨x, hx, rfl⟩
    rcases List.mem_pair.1 hx with rfl | rfl
    · exact ⟨_, rfl, locate_outer⟩
    · exact ⟨_, rfl, locate_inner⟩
  · rintro ys x zs hsplit - y hy m hm
    cases ys with
    | nil => cases hy
    | cons z ys =>
      cases ys with
      | nil =>
        obtain ⟨rfl, hrest⟩ := List.cons.inj hsplit
        obtain ⟨rfl, -⟩ := List.cons.inj hrest
        obtain rfl := List.mem_singleton.1 hy
        rw [hm.eq_module (read_outer _) plan_outer_ordered]
        exact file_ne_inner
      | cons z' ys => simp at hsplit
  · rintro x hx - source q m hsource hplan hm
    rcases List.mem_pair.1 hx with rfl | rfl
    · rw [read_outer file, sourceOf_encode] at hsource
      obtain rfl := Except.ok.inj hsource
      obtain rfl := Except.ok.inj (plan_outer_ordered.symm.trans hplan)
      have hread : v.files.read v.folder file = world.files.read world.folder file := by
        refine hdone.read_eq fun x hx _ => ?_
        rcases List.mem_pair.1 hx with rfl | rfl
        · exact file_ne_outer
        · exact file_ne_inner
      have hholds : Holds v.files v.folder file module :=
        ⟨_, _, hread.trans read_file, Utf8.decode_encode _, parse_module⟩
      rcases hm with ⟨hself, -⟩ | ⟨-, hm⟩
      · exact absurd hself file_ne_outer
      · rw [hholds.unique hm]
        exact stable_outer isPlain_module
    · rw [read_inner outer, sourceOf_encode] at hsource
      obtain rfl := Except.ok.inj hsource
      obtain rfl := Except.ok.inj (plan_inner_ordered.symm.trans hplan)
      have hholds : Holds v.files v.folder outer chunk :=
        ⟨_, _, read_outer_of_processes hdone, Utf8.decode_encode _, hparse⟩
      rcases hm with ⟨hself, -⟩ | ⟨-, hm⟩
      · exact absurd hself outer_ne_inner
      · rw [hholds.unique hm]
        exact stable_inner hplain

end Chain

open Chain in
/-- Two link files change, of which the second one requires the first one. -/
theorem second_run_unchanged_two :
    exec (ordered.canonicalize (.absolute [])) world = (Except.ok ordered, world) ∧
      ∃ b w' b' w'', exec (Batch.run false ordered (.absolute ["P"])) world = (.ok b, w') ∧
        b.succeeded = true ∧ Orderly ordered world w' b.processed ∧
        b.outcomes.map Outcome.isChanged = [true, true] ∧
        exec (Batch.run false ordered (.absolute ["P"])) w' = (.ok b', w'') ∧
        (∀ o ∈ b'.outcomes, o = .unchanged) ∧ w''.files = w'.files := by
  have hcanonical : exec (ordered.canonicalize (.absolute [])) world =
      (Except.ok ordered, world) := by cbv
  obtain ⟨chunk, hparse, hexports, hplain⟩ := exists_outerChunk
  obtain ⟨v, hdone⟩ := first_run_ordered hparse hexports
  obtain ⟨w', hrun, htold⟩ := exec_run_of_processes discover_world hdone
  have horderly := (orderly hparse hplain hdone).congr htold.files htold.folder
  obtain ⟨b', w'', hagain, hunchanged, hfiles⟩ := second_run_unchanged hrun rfl horderly
  exact ⟨hcanonical, _, w', b', w'', hrun, rfl, horderly, rfl, hagain, hunchanged, hfiles⟩

/-! ### Out of order -/

namespace Chain

open Link.Sample (parse_at module parse_module)

/-- The link file in the folder requires the one in the index, and that requires the module. -/
def tree : Node := treeOf inner file

theorem plan_outer_tree : (plan tree outer (outerPlan inner).chunk.source).result =
    .ok (outerPlan inner) := plan_outer file rfl

theorem plan_inner_tree : (plan tree inner (innerPlan file).chunk.source).result =
    .ok (innerPlan file) := plan_inner inner rfl

/-- The link file in the index, once it was updated. -/
def innerText : List Char := (innerPlan file).render module.exports

theorem outcomeOf_outer : outcomeOf world.files world.folder tree outer =
    .ok ⟨outer, .unchanged⟩ := by
  refine outcomeOf_eq_ok_iff.2 ⟨withoutLinks_outer, ?_⟩
  rw [outcomeAt_of_texts (read_outer _) plan_outer_tree (read_inner file) (parse_at inner)]
  rfl

theorem outcomeOf_inner : outcomeOf world.files world.folder tree inner =
    .ok ⟨inner, .changed innerText⟩ := by
  refine outcomeOf_eq_ok_iff.2 ⟨withoutLinks_inner, ?_⟩
  rw [outcomeAt_of_texts (read_inner _) plan_inner_tree read_file parse_module]
  exact congrArg Except.ok (Plan.outcome_of_fresh rfl (List.cons_ne_nil _ _))

theorem exists_innerChunk : ∃ chunk call, Luau.parse inner.text innerText = .ok chunk ∧
    chunk.exports ≠ [] ∧ (plan tree inner innerText).result = .ok ⟨chunk, call, file⟩ := by
  obtain ⟨chunk, call, hparse, hdecodes⟩ := (plan_parsed plan_inner_tree).1.exists_decodes
    (Path.text_ne_nil inner) parse_module (List.cons_ne_nil _ _)
    (stable_inner isPlain_module).keepsOpen
    rfl
  refine ⟨chunk, call, hparse, fun hnil => ?_, plan_again plan_inner_tree hparse hdecodes⟩
  have hexports := hdecodes.exports
  rw [hnil] at hexports
  cases hexports

/-- In the first run the link file that requires the other one comes first, and finds no type. -/
theorem first_run : ∃ v, Processes false tree world [outer, inner]
    [⟨outer, .unchanged⟩, ⟨inner, .changed innerText⟩] v ∧ Settled tree v inner := by
  obtain ⟨u, houter, hfolder, heffect⟩ := exec_process false tree outer world
  rw [outcomeOf_outer] at houter heffect
  have hfiles : u.files = world.files := heffect.files_eq (.inr rfl)
  obtain ⟨v, hinner, -, -⟩ := exec_process false tree inner u
  rw [hfiles, hfolder, outcomeOf_inner] at hinner
  refine ⟨v, .cons houter (.cons hinner (.nil v)),
    settled_of_step (x := ⟨inner, .changed innerText⟩) hinner ?_ rfl⟩
  rintro - source q m hsource hfinds
  rw [hfiles, hfolder, read_inner file, sourceOf_encode] at hsource
  obtain rfl := Except.ok.inj hsource
  have hfinds' : Finds u.files u.folder tree inner (innerPlan file).chunk.source (innerPlan file)
      module :=
    ⟨plan_inner_tree, _, _, by rw [hfiles, hfolder]; exact read_file, Utf8.decode_encode _,
      parse_module⟩
  obtain ⟨rfl, rfl⟩ := hfinds'.unique hfinds
  exact stable_inner isPlain_module

end Chain

open Chain in
/-- In the second run the first link file finds the type that the other one was given in the first
run. -/
theorem second_run_changes_outer :
    exec (tree.canonicalize (.absolute [])) world = (Except.ok tree, world) ∧
      ∃ b w' b' w'', exec (Batch.run false tree (.absolute ["P"])) world = (.ok b, w') ∧
        b.succeeded = true ∧ exec (Batch.run false tree (.absolute ["P"])) w' = (.ok b', w'') ∧
        ∃ o ∈ b'.outcomes, o.isChanged = true := by
  have hcanonical : exec (tree.canonicalize (.absolute [])) world = (Except.ok tree, world) := by
    cbv
  obtain ⟨v, hdone, hsettled⟩ := first_run
  obtain ⟨w', hrun, htold⟩ := exec_run_of_processes discover_world hdone
  obtain ⟨chunk, call, hparse, hexports, hplan⟩ := exists_innerChunk
  have hfolder : w'.folder = world.folder := htold.folder.trans hdone.folder
  have hshape : world.files.SameShape w'.files := htold.files ▸ hdone.sameShape
  have hinner : w'.files.read w'.folder inner = .ok (Utf8.encode innerText) := by
    rw [htold.files, htold.folder]
    cases hdone with
    | cons houter hrest =>
      cases hrest with
      | cons hinner hend =>
        cases hend
        exact read_of_change hinner rfl
  have houter : outcomeOf w'.files w'.folder tree outer =
      .ok ⟨outer, .changed ((outerPlan inner).render chunk.exports)⟩ := by
    have hread : w'.files.read w'.folder outer = world.files.read world.folder outer := by
      rw [htold.files, htold.folder]
      refine hdone.read_eq fun x hx hchanged => ?_
      rcases List.mem_pair.1 hx with rfl | rfl
      · cases hchanged
      · exact outer_ne_inner
    refine outcomeOf_eq_ok_iff.2 ⟨by rw [hfolder, ← hshape.withoutLinks, withoutLinks_outer], ?_⟩
    rw [outcomeAt_of_texts (hread.trans (read_outer _)) plan_outer_tree hinner hparse]
    exact congrArg Except.ok (Plan.outcome_of_fresh rfl hexports)
  obtain ⟨u, hstep, hfolder', heffect⟩ := exec_process false tree outer w'
  rw [houter] at hstep heffect
  have hsettled' : Settled tree u inner := by
    have hstart : Settled tree w' inner := by
      unfold Settled
      rw [htold.files, htold.folder]
      exact hsettled
    refine hstart.step hstep (fun hsame => ?_) fun _ m hm => ?_
    · rw [hfolder, ← hshape.sameFile] at hsame
      exact absurd hsame (FileSystem.not_sameFile locate_inner locate_outer (by decide))
    · rw [hfolder, ← hshape.sameFile, hm.eq_module hinner hplan]
      exact file_ne_outer
  have houtcome : outcomeOf u.files u.folder tree inner = .ok ⟨inner, .unchanged⟩ := by
    refine outcomeOf_eq_ok_iff.2 ⟨?_, hsettled'⟩
    rw [hfolder', hfolder, ← heffect.sameShape.withoutLinks, ← hshape.withoutLinks,
      withoutLinks_inner]
  obtain ⟨u', hstep', -, -⟩ := exec_process false tree inner u
  rw [houtcome] at hstep'
  obtain ⟨w'', hrun', -⟩ := exec_run_of_processes (discover_again hdone htold discover_world)
    (.cons hstep (.cons hstep' (.nil u')))
  exact ⟨hcanonical, _, w', _, w'', hrun, rfl, hrun', _, List.mem_cons_self, rfl⟩

end TypedLinks
