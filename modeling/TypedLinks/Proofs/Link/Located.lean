import TypedLinks.Proofs.Link.Effect
import TypedLinks.Proofs.Link.Source
import TypedLinks.Proofs.Syntax.Problems

/-!
# Where a link file fails

A problem on the way is raised with a place, or with none, and with the source or without it; the
stage at which it is raised fills in what is missing. Whatever the stage, the problem of a link file
that fails ends up at a place in the link file, or at one in its module.
-/

namespace TypedLinks

open Luau Logged

/-! ## Filling in a place -/

namespace Problem

/-- A problem that a place in a file can be filled in: it shows no source, and the place that it
names is in the file, if it names one. -/
structure LacksSource (p : Problem) (file : Text) (source : List Char) : Prop where
  unshown : p.source = none
  placed : ∀ l, p.location = some l → l.file = file ∧ l.IsIn (Text.ofChars source)

variable {p : Problem} {file : Text} {source : List Char}

theorem LocatedIn.attach (h : p.LocatedIn file source) (l : Option Location) (t : Option Text) :
    p.attach l t = p := by
  obtain ⟨own, hown, -, -⟩ := h.placed
  unfold Problem.attach
  rw [hown, h.shown]
  rfl

theorem LacksSource.attach (h : p.LacksSource file source) {place : Location}
    (hfile : place.file = file) (hplace : place.IsIn (Text.ofChars source)) :
    (p.attach (some place) (some (Text.ofChars source))).LocatedIn file source := by
  unfold Problem.attach
  cases hlocation : p.location with
  | none => exact ⟨rfl, place, rfl, hfile, hplace⟩
  | some own =>
    obtain ⟨hown, hin⟩ := h.placed own hlocation
    dsimp only
    rw [if_pos ⟨h.unshown, by rw [Option.map_some, hfile, hown]⟩]
    exact ⟨rfl, own, rfl, hown, hin⟩

end Problem

/-- The start of a node of a chunk is a place in its source. -/
theorem Luau.Chunk.HasNode.isIn {file : Text} {source : List Char} {chunk : Chunk}
    (h : parse file source = .ok chunk) {n : SyntaxNode} (hn : chunk.HasNode n) :
    (Location.ofSpan chunk.file n.span).file = file ∧
      (Location.ofSpan chunk.file n.span).IsIn (Text.ofChars source) := by
  refine ⟨?_, (hn.span_in h).1.isIn rfl rfl⟩
  obtain ⟨ts, own, -, -, rfl⟩ := parse_eq_ok_iff.1 h
  rfl

namespace Link

/-! ## Nodes that are blamed -/

/-- The node that a fault of the shape of a link file is about. -/
def ShapeFault.node? : ShapeFault → Option SyntaxNode
  | noReturn => none
  | returnCount last => some (.returned last)
  | unexpected s => some (.statement s)
  | unbound e | notACall e => some (.expression e)

theorem ShapeFault.location_problem (fault : ShapeFault) (chunk : Chunk) :
    (fault.problem chunk).source = none ∧
      (fault.problem chunk).location = fault.node?.map (.ofSpan chunk.file ·.span) := by
  cases fault <;> exact ⟨rfl, rfl⟩

section Nodes

variable {chunk : Chunk} {e e' call : Expression} {fault : ShapeFault} {n : SyntaxNode}

theorem hasNode_of_statement {s : Statement} (h : s ∈ chunk.block.statements) :
    chunk.HasNode (.statement s) :=
  .top (List.mem_append_left _ (List.mem_map_of_mem h))

theorem hasNode_of_last {r : Return} (h : chunk.block.last = some r) :
    chunk.HasNode (.returned r) := by
  refine .top (List.mem_append_right _ ?_)
  rw [h]
  exact List.mem_singleton_self _

theorem hasNode_of_returned (h : returned chunk.block = .ok e) : chunk.HasNode (.expression e) := by
  unfold returned at h
  split at h
  · contradiction
  · rename_i r hr
    split at h <;> cases h
    rename_i hexpressions
    refine .child (hasNode_of_last hr) ?_
    rw [SyntaxNode.children, hexpressions]
    exact List.mem_singleton_self _

theorem hasNode_of_returned_fault (h : returned chunk.block = .error fault)
    (hn : fault.node? = some n) : chunk.HasNode n := by
  unfold returned at h
  split at h
  · cases h
    contradiction
  · rename_i r hr
    split at h <;> cases h
    cases hn
    exact hasNode_of_last hr

theorem hasNode_of_bound {s : Statement} (hs : chunk.HasNode (.statement s))
    (h : bound? s = some e) : chunk.HasNode (.expression e) := by
  unfold bound? at h
  split at h
  · split at h
    · cases h
      exact .child hs List.mem_cons_self
    · contradiction
  · contradiction

theorem unexpected_of_binding? {ss : List Statement} {acc : Option Expression}
    (h : binding? acc ss = .error fault) : ∃ s ∈ ss, fault = .unexpected s := by
  induction ss generalizing acc with
  | nil => contradiction
  | cons s ss ih =>
    unfold binding? at h
    have hlater (h : ∃ s' ∈ ss, fault = .unexpected s') : ∃ s' ∈ s :: ss, fault = .unexpected s' := by
      obtain ⟨s', hs', hfault⟩ := h
      exact ⟨s', List.mem_cons_of_mem _ hs', hfault⟩
    split at h
    · exact hlater (ih h)
    · split at h
      · exact hlater (ih h)
      · cases h
        exact ⟨s, List.mem_cons_self, rfl⟩

theorem hasNode_of_calledBy (he : chunk.HasNode (.expression e))
    (h : calledBy chunk.block e = .ok call) : chunk.HasNode (.expression call) := by
  unfold calledBy at h
  split at h
  · split at h <;> cases h
    rename_i hbinding
    obtain ⟨s, hs, hbound⟩ := (mem_of_binding? hbinding).resolve_left nofun
    exact hasNode_of_bound (hasNode_of_statement hs) hbound
  · split at h <;> cases h
    exact he

theorem hasNode_of_calledBy_fault (he : chunk.HasNode (.expression e))
    (h : calledBy chunk.block e = .error fault) (hn : fault.node? = some n) : chunk.HasNode n := by
  unfold calledBy at h
  split at h
  · split at h <;> cases h
    · cases hn
      exact he
    · rename_i hbinding
      obtain ⟨s, hs, rfl⟩ := unexpected_of_binding? hbinding
      cases hn
      exact hasNode_of_statement hs
  · split at h <;> cases h
    rename_i s ss hstatements
    cases hn
    exact hasNode_of_statement (by rw [hstatements]; exact List.mem_cons_self)

/-- The require call of a chunk is a node of it. -/
theorem hasNode_of_requireCall (h : requireCall chunk.block = .ok call) :
    chunk.HasNode (.expression call) := by
  unfold requireCall at h
  cases hreturned : returned chunk.block with
  | error fault =>
    rw [hreturned] at h
    contradiction
  | ok e =>
    cases hcalled : calledBy chunk.block e with
    | error fault =>
      rw [hreturned] at h
      simp only [bind, Except.bind, hcalled] at h
      contradiction
    | ok e' =>
      rw [hreturned] at h
      simp only [bind, Except.bind, hcalled] at h
      split at h <;> cases h
      exact hasNode_of_calledBy (hasNode_of_returned hreturned) hcalled

/-- What a fault of the shape of a chunk is about is a node of it. -/
theorem hasNode_of_requireCall_fault (h : requireCall chunk.block = .error fault)
    (hn : fault.node? = some n) : chunk.HasNode n := by
  unfold requireCall at h
  cases hreturned : returned chunk.block with
  | error fault' =>
    rw [hreturned] at h
    cases h
    exact hasNode_of_returned_fault hreturned hn
  | ok e =>
    have he := hasNode_of_returned hreturned
    cases hcalled : calledBy chunk.block e with
    | error fault' =>
      rw [hreturned] at h
      simp only [bind, Except.bind, hcalled] at h
      cases h
      exact hasNode_of_calledBy_fault he hcalled hn
    | ok e' =>
      rw [hreturned] at h
      simp only [bind, Except.bind, hcalled] at h
      split at h <;> cases h
      cases hn
      exact hasNode_of_calledBy he hcalled

/-- What a path cannot be made of is below the expression that the path is read from. -/
theorem hasNode_of_path_fault {fault : RequirePath.Fault} (he : chunk.HasNode (.expression e))
    (h : RequirePath.ofExpression e = .error fault) :
    chunk.HasNode (.expression fault.expression) := by
  induction e using RequirePath.ofExpression.induct with
  | case1 => contradiction
  | case2 span base name ih =>
    rw [RequirePath.ofExpression] at h
    cases hbase : RequirePath.ofExpression base with
    | error f =>
      rw [hbase] at h
      cases h
      exact ih (.child he List.mem_cons_self) hbase
    | ok path =>
      rw [hbase] at h
      contradiction
  | case3 span base key ih =>
    rw [RequirePath.ofExpression] at h
    cases hbase : RequirePath.ofExpression base with
    | error f =>
      rw [hbase] at h
      cases h
      exact ih (.child he List.mem_cons_self) hbase
    | ok path =>
      rw [hbase] at h
      simp only [bind, Except.bind] at h
      split at h <;> cases h
      exact .child he (List.mem_cons_of_mem _ List.mem_cons_self)
  | case4 e hname hfield hkey =>
    rw [RequirePath.ofExpression] at h
    · cases h
      exact he
    all_goals assumption

/-- What makes a call no static require call is the call or below it. -/
theorem hasNode_of_ofCall_fault {fault : RequirePath.Fault} (he : chunk.HasNode (.expression e))
    (h : RequirePath.ofCall e = .error fault) : chunk.HasNode (.expression fault.expression) := by
  unfold RequirePath.ofCall at h
  split at h
  · split at h
    · cases h
      exact .child he List.mem_cons_self
    · split at h
      · cases h
        exact he
      · split at h
        · exact hasNode_of_path_fault (.child he (List.mem_cons_of_mem _ List.mem_cons_self)) h
        · cases h
          exact he
  · cases h
    exact he

end Nodes

/-! ## Stages -/

section Stages

variable {source text : List Char} {file : Text} {p : Problem} {stage stage' : Stage}

theorem result_atStage_eq_problem {α : Type} {place : Location} {x : Logged Stop α}
    (h : (atStage source place stage x).result = .error (.problem stage' p)) :
    ∃ q, x.result = .error (.problem q) ∧
      p = q.attach (some place) (some (Text.ofChars source)) := by
  unfold atStage at h
  rw [Logged.result_mapError, Logged.mapError_eq_error_iff] at h
  obtain ⟨_ | c, hx, heq⟩ := h <;> cases heq
  exact ⟨_, hx, rfl⟩

/-- A stage whose problems are located in the file, or can be put there, has problems that are
located in the file. -/
theorem located_of_atStage {α : Type} {place : Location} {x : Logged Stop α}
    (hfile : place.file = file) (hplace : place.IsIn (Text.ofChars source))
    (hx : ∀ q, x.result = .error (.problem q) →
      q.LocatedIn file source ∨ q.LacksSource file source)
    (h : (atStage source place stage x).result = .error (.problem stage' p)) :
    p.LocatedIn file source := by
  obtain ⟨q, hq, rfl⟩ := result_atStage_eq_problem h
  rcases hx q hq with hlocated | hlacks
  · rwa [hlocated.attach]
  · exact hlacks.attach hfile hplace

theorem lacksSource_of_no_location (hsource : p.source = none) (hlocation : p.location = none) :
    p.LacksSource file source :=
  ⟨hsource, fun l hl => by rw [hlocation] at hl; contradiction⟩

theorem ShapeFault.lacksSource {chunk : Chunk} (hparse : parse file source = .ok chunk)
    {fault : ShapeFault} (h : requireCall chunk.block = .error fault) :
    (fault.problem chunk).LacksSource file source := by
  obtain ⟨hsource, hlocation⟩ := fault.location_problem chunk
  refine ⟨hsource, fun l hl => ?_⟩
  rw [hlocation, Option.map_eq_some_iff] at hl
  obtain ⟨n, hn, rfl⟩ := hl
  exact (hasNode_of_requireCall_fault h hn).isIn hparse

theorem lacksSource_of_ofCall {chunk : Chunk} (hparse : parse file source = .ok chunk)
    {call : Expression} (hcall : chunk.HasNode (.expression call)) {fault : RequirePath.Fault}
    (h : RequirePath.ofCall call = .error fault) :
    (fault.problem chunk).LacksSource file source := by
  refine ⟨rfl, fun l hl => ?_⟩
  cases hl
  exact (hasNode_of_ofCall_fault hcall h).isIn hparse

theorem located_unparsedLink {q : Problem} (h : q.LocatedIn file source) :
    (unparsedLink q).LocatedIn file source :=
  ⟨h.shown, h.placed⟩

theorem startOf_isIn (link : Path) (source : List Char) :
    (startOf link).IsIn (Text.ofChars source) :=
  (Position.in_start source).isIn rfl rfl

variable {tree : Node} {link module : Path} {found : Plan}
  {bytes : Except DiskFault (List UInt8)}

/-- Work that finds no module fails at a place in the link file. -/
theorem located_of_plan (h : (plan tree link source).result = .error (.problem stage p)) :
    p.LocatedIn link.text source := by
  unfold plan step at h
  rcases result_bind_eq_error.1 h with hstart | ⟨⟨chunk, call⟩, hstart, h⟩
  · refine located_of_atStage rfl (startOf_isIn link source) (fun q hq => ?_) hstart
    rcases result_bind_eq_error.1 hq with hq | ⟨chunk, hchunk, hq⟩
    · rw [result_parseFile, mapError_eq_error_iff] at hq
      obtain ⟨_ | _, hfault, heq⟩ := hq <;> cases heq
      exact .inl (located_unparsedLink (located_of_parse hfault))
    · rw [result_parseFile, mapError_eq_ok] at hchunk
      rcases result_bind_eq_error.1 hq with hq | ⟨call, -, hq⟩
      · rw [result_ofExcept, mapError_eq_error_iff] at hq
        obtain ⟨fault, hfault, heq⟩ := hq
        cases heq
        exact .inr (fault.lacksSource hchunk hfault)
      · cases hq
  obtain ⟨hparse, hcall⟩ : parse link.text source = .ok chunk ∧
      requireCall chunk.block = .ok call := by
    simp only [result_atStage_eq_ok, result_bind_eq_ok, result_parseFile, result_ofExcept,
      result_pure, mapError_eq_ok, Except.ok.injEq, Prod.mk.injEq] at hstart
    obtain ⟨chunk', hparse, call', hcall, rfl, rfl⟩ := hstart
    exact ⟨hparse, hcall⟩
  have hnode := hasNode_of_requireCall hcall
  obtain ⟨hfile, hin⟩ := hnode.isIn hparse
  have hstage {α : Type} {stage' : Stage} {x : Logged Stop α}
      (hx : ∀ q, x.result = .error (.problem q) → q.LacksSource link.text source) :
      (atStage source (Location.ofSpan chunk.file call.span) stage' x).result =
        .error (.problem stage p) → p.LocatedIn link.text source :=
    located_of_atStage hfile hin fun q hq => .inr (hx q hq)
  rcases result_bind_eq_error.1 h with h | ⟨-, -, h⟩
  · cases h
  rcases result_bind_eq_error.1 h with h | ⟨target, -, h⟩
  · refine hstage (fun q hq => ?_) h
    rcases result_bind_eq_error.1 hq with hq | ⟨path, -, hq⟩
    · rw [result_ofExcept, mapError_eq_error_iff] at hq
      obtain ⟨fault, hfault, heq⟩ := hq
      cases heq
      exact lacksSource_of_ofCall hparse hnode hfault
    rcases result_bind_eq_error.1 hq with hq | ⟨-, -, hq⟩
    · cases hq
    rcases result_bind_eq_error.1 hq with hq | ⟨chain, -, hq⟩
    · rw [result_ofExcept, mapError_eq_error_iff] at hq
      obtain ⟨fault, -, heq⟩ := hq
      cases heq
      cases fault <;> exact lacksSource_of_no_location rfl rfl
    · rcases result_bind_eq_error.1 hq with hq | ⟨-, -, hq⟩ <;> cases hq
  rcases result_bind_eq_error.1 h with h | ⟨-, -, h⟩
  · cases h
  rcases result_bind_eq_error.1 h with h | ⟨module, -, h⟩
  · refine hstage (fun q hq => ?_) h
    split at hq
    · cases hq
      exact lacksSource_of_no_location rfl rfl
    · rcases result_bind_eq_error.1 hq with hq | ⟨-, -, hq⟩ <;> cases hq
  · rcases result_bind_eq_error.1 h with hq | ⟨-, -, hq⟩ <;> cases hq

/-- A module that is not read has a problem without a place; one that is not parsed has a problem
at a place in it. -/
theorem problem_of_extract (h : (extract module bytes).result = .error (.problem p)) :
    p.kind = .typeExtraction ∧ (p.source = none ∧ p.location = none ∨
      ∃ bs text, bytes = .ok bs ∧ Utf8.decode bs = .ok text ∧ p.LocatedIn module.text text) := by
  unfold extract at h
  rcases result_bind_eq_error.1 h with h | ⟨bs, hbytes, h⟩
  · rw [result_ofExcept, mapError_eq_error_iff] at h
    obtain ⟨fault, -, heq⟩ := h
    cases fault <;> cases heq <;> exact ⟨rfl, .inl ⟨rfl, rfl⟩⟩
  rcases result_bind_eq_error.1 h with h | ⟨text, htext, h⟩
  · rw [result_ofExcept, mapError_eq_error_iff] at h
    obtain ⟨fault, -, heq⟩ := h
    cases heq
    exact ⟨rfl, .inl ⟨rfl, rfl⟩⟩
  rw [result_ofExcept, mapError_eq_ok] at hbytes htext
  rcases result_bind_eq_error.1 h with h | ⟨chunk, -, h⟩
  · rw [result_parseFile, mapError_eq_error_iff] at h
    obtain ⟨_ | _, hfault, heq⟩ := h <;> cases heq
    have hlocated := located_of_parse hfault
    exact ⟨rfl, .inr ⟨bs, text, hbytes, htext, hlocated.shown, hlocated.placed⟩⟩
  · rcases result_bind_eq_error.1 h with h | ⟨-, -, h⟩ <;> cases h

/-- Work that has found a module fails at the require call, or at a place in the module. -/
theorem located_of_finish (hfound : (plan tree link source).result = .ok found)
    (h : (found.finish link bytes).result = .error (.problem stage p)) :
    p.LocatedIn link.text source ∨ p.kind = .typeExtraction ∧
      ∃ bs text, bytes = .ok bs ∧ Utf8.decode bs = .ok text ∧
        p.LocatedIn found.module.text text := by
  obtain ⟨-, -, hparse, hcall, -, -, -⟩ := result_plan_eq_ok_iff.1 hfound
  have hstage : (atStage found.chunk.source (.ofSpan found.chunk.file found.call.span)
      .moduleLocated (extract found.module bytes)).result = .error (.problem stage p) := by
    rw [result_finish] at h
    cases hresult : (atStage found.chunk.source (.ofSpan found.chunk.file found.call.span)
        .moduleLocated (extract found.module bytes)).result with
    | error halt =>
      rw [hresult] at h
      cases h
      rfl
    | ok declarations =>
      rw [hresult] at h
      cases h
  rw [source_of_parse hparse] at hstage
  obtain ⟨q, hq, rfl⟩ := result_atStage_eq_problem hstage
  obtain ⟨hkind, ⟨hsource, hlocation⟩ | ⟨bs, text, hbytes, htext, hlocated⟩⟩ := problem_of_extract hq
  · obtain ⟨hfile, hin⟩ := (hasNode_of_requireCall hcall).isIn hparse
    exact .inl ((lacksSource_of_no_location hsource hlocation).attach hfile hin)
  · rw [hlocated.attach]
    exact .inr ⟨hkind, bs, text, hbytes, htext, hlocated⟩

end Stages

/-! ## Failures -/

open World in
/-- The problem of a link file that fails is located in the link file; or it is a problem of the
module, and located in the module. -/
theorem failure_located {tree : Node} {link : Path} {source : List Char} {w : World} {p : Problem}
    (h : (exec (update tree link source : ExceptT Crash (StateM World) Outcome) w).1 =
      .ok (.failed p)) :
    p.LocatedIn link.text source ∨ p.kind = .typeExtraction ∧ ∃ found bytes text,
      (plan tree link source).result = .ok found ∧ w.files.read w.folder found.module = .ok bytes ∧
        Utf8.decode bytes = .ok text ∧ p.LocatedIn found.module.text text := by
  obtain ⟨w', hexec, -⟩ := exec_update tree link source w
  rw [hexec] at h
  dsimp only at h
  unfold updated at h
  have hhalt {halt : Halt} (h : halt.outcome = .ok (.failed p)) :
      ∃ stage, halt = .problem stage p := by
    cases halt <;> cases h
    exact ⟨_, rfl⟩
  split at h
  · rename_i halt hplan
    obtain ⟨stage, rfl⟩ := hhalt h
    exact .inl (located_of_plan hplan)
  · rename_i found hplan
    cases hfinish : (found.finish link (w.files.read w.folder found.module)).result with
    | error halt =>
      rw [hfinish] at h
      obtain ⟨stage, rfl⟩ := hhalt h
      refine (located_of_finish hplan hfinish).imp_right
        fun ⟨hkind, bytes, text, hbytes, htext, hp⟩ => ?_
      exact ⟨hkind, found, bytes, text, hplan, hbytes, htext, hp⟩
    | ok outcome =>
      rw [hfinish] at h
      obtain rfl : outcome = .failed p := Except.ok.inj h
      obtain ⟨_, _, chunk, -, -, -, houtcome⟩ := result_finish_eq_ok_iff.1 hfinish
      unfold Plan.outcome at houtcome
      split at houtcome
      · cases houtcome
      · split at houtcome <;> cases houtcome

/-- A folder with a module that ends in a call which is not closed. -/
def brokenWorld : World where
  files := ⟨[(["p"], .folder), (["p", "m.lua"], .file (Utf8.encode "local a\nf(".toList))]⟩

/-- The link file of the module. -/
def brokenLink : Path := .absolute ["p", "l.lua"]

/-- The sourcemap of the link file and its module. -/
def brokenTree : Node :=
  .mk "game" "DataModel" [] [.mk "l" "ModuleScript" [brokenLink] [],
    .mk "m" "ModuleScript" [.absolute ["p", "m.lua"]] []]

open World in
/-- The problem is located behind the last line of the module. -/
theorem failure_located_module :
    let source := "return require(script.Parent.m)".toList
    ∃ p, (exec (update brokenTree brokenLink source : ExceptT Crash (StateM World) Outcome)
        brokenWorld).1 = .ok (.failed p) ∧
      p.location.map (fun l => (l.line, l.column)) = some (2, 3) ∧
      (p.LocatedIn brokenLink.text source ∨ p.kind = .typeExtraction ∧ ∃ found bytes text,
        (plan brokenTree brokenLink source).result = .ok found ∧
          brokenWorld.files.read brokenWorld.folder found.module = .ok bytes ∧
          Utf8.decode bytes = .ok text ∧ p.LocatedIn found.module.text text) := by
  intro source
  have hrun : ((exec (update brokenTree brokenLink source :
      ExceptT Crash (StateM World) Outcome) brokenWorld).1.toOption.bind Outcome.problem?).any
        (fun p => p.location.map (fun l => (l.line, l.column)) = some (2, 3)) = true := by
    decide +kernel
  generalize hexec : (exec (update brokenTree brokenLink source :
    ExceptT Crash (StateM World) Outcome) brokenWorld).1 = r at hrun
  obtain ⟨p, hp, hlocation⟩ := (Option.any_eq_true _ _).1 hrun
  obtain ⟨outcome, houtcome, hproblem⟩ := Option.bind_eq_some_iff.1 hp
  obtain rfl : r = .ok (.failed p) := by
    cases r with
    | error c => contradiction
    | ok o =>
      cases houtcome
      cases outcome <;> cases hproblem
      rfl
  exact ⟨p, rfl, of_decide_eq_true hlocation, failure_located hexec⟩

end Link

end TypedLinks
