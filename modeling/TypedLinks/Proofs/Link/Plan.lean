import TypedLinks.Link.Update
import TypedLinks.Proofs.Syntax.Chunk

/-!
# The steps of an update

When the module of a link file is found, what the link file becomes given its module, and when the
work ends in a crash: only for a source that is parsed and cannot be represented, or for a path that
cannot be passed to the system.
-/

namespace TypedLinks

open Luau

/-! ## Results of logged work -/

namespace Logged

variable {ε ε' α β : Type} {x : Logged ε α} {f : α → Logged ε β} {a : α} {b : β} {e : ε}

theorem result_bind_eq_ok :
    (x >>= f).result = .ok b ↔ ∃ a, x.result = .ok a ∧ (f a).result = .ok b := by
  rw [result_bind]
  cases x.result <;> simp [bind, Except.bind]

theorem result_bind_eq_error :
    (x >>= f).result = .error e ↔
      x.result = .error e ∨ ∃ a, x.result = .ok a ∧ (f a).result = .error e := by
  rw [result_bind]
  cases x.result <;> simp [bind, Except.bind]

theorem mapError_eq_error_iff {r : Except ε α} {g : ε → ε'} {e : ε'} :
    r.mapError g = .error e ↔ ∃ e', r = .error e' ∧ g e' = e := by
  cases r <;> simp [Except.mapError]

/-- A loop whose steps only log. -/
theorem result_forIn (xs : List α) (f : α → Logged ε PUnit) (h : ∀ a, (f a).result = .ok ⟨⟩) :
    (forIn xs PUnit.unit fun a (_ : PUnit) => do
      f a
      return ForInStep.yield PUnit.unit : Logged ε PUnit).result = .ok ⟨⟩ := by
  induction xs with
  | nil => rfl
  | cons a xs ih =>
    rw [List.forIn_cons, result_bind, result_bind, h]
    exact ih

end Logged

open Logged

namespace Link

/-! ## Files that are parsed -/

theorem result_parseFile {file : Text} {source : List Char} {problem : Problem → Problem} :
    (parseFile file source problem).result = (parse file source).mapError fun
      | .problem p => .problem (problem p)
      | .unbuildable fault => .crash (.unbuildable fault) := by
  unfold parseFile
  split <;> simp_all [Except.mapError, bind]

theorem result_parseFile_eq_crash_iff {file : Text} {source : List Char}
    {problem : Problem → Problem} {c : Crash} :
    (parseFile file source problem).result = .error (.crash c) ↔
      ∃ fault, parse file source = .error (.unbuildable fault) ∧ c = .unbuildable fault := by
  rw [result_parseFile, mapError_eq_error_iff]
  constructor
  · rintro ⟨_ | fault, h, heq⟩
    · contradiction
    · cases heq
      exact ⟨fault, h, rfl⟩
  · rintro ⟨fault, h, rfl⟩
    exact ⟨_, h, rfl⟩

theorem result_atStage_eq_ok {α : Type} {source : List Char} {place : Location} {stage : Stage}
    {x : Logged Stop α} {a : α} :
    (atStage source place stage x).result = .ok a ↔ x.result = .ok a := by
  unfold atStage
  rw [result_mapError, mapError_eq_ok]

/-- A stage changes no crash, and makes none of a problem. -/
theorem result_atStage_eq_crash {α : Type} {source : List Char} {place : Location} {stage : Stage}
    {x : Logged Stop α} {c : Crash} :
    (atStage source place stage x).result = .error (.crash c) ↔ x.result = .error (.crash c) := by
  unfold atStage
  rw [result_mapError, mapError_eq_error_iff]
  constructor
  · rintro ⟨_ | c', h, heq⟩
    · contradiction
    · cases heq
      exact h
  · exact fun h => ⟨_, h, rfl⟩

section Plan

variable {tree : Node} {link : Path} {source : List Char} {p : Plan} {c : Crash}

/-- A link file has a plan if it is parsed, its require call leads somewhere over the sourcemap, and
there is a module file there. -/
theorem result_plan_eq_ok_iff : (plan tree link source).result = .ok p ↔
    ∃ path target, parse link.text source = .ok p.chunk ∧ requireCall p.chunk.block = .ok p.call ∧
      RequirePath.ofCall p.call = .ok path ∧ tree.resolve link path = .ok target ∧
      target.node.moduleFile? = some p.module := by
  obtain ⟨chunk, call, module⟩ := p
  unfold plan step
  simp only [result_bind_eq_ok, result_atStage_eq_ok, result_parseFile, result_ofExcept, result_log,
    result_pure, mapError_eq_ok, Except.ok.injEq, true_and, exists_const]
  constructor
  · rintro ⟨_, ⟨chunk, hparse, call, hcall, rfl⟩, node, ⟨path, hpath, target, htarget, rfl⟩, module,
      hmodule, heq⟩
    cases heq
    refine ⟨path, target, hparse, hcall, hpath, htarget, ?_⟩
    split at hmodule
    · contradiction
    · rename_i hsome
      rw [hsome, Except.ok.inj hmodule]
  · rintro ⟨path, target, hparse, hcall, hpath, htarget, hmodule⟩
    exact ⟨(chunk, call), ⟨chunk, hparse, call, hcall, rfl⟩, target.node,
      ⟨path, hpath, target, htarget, rfl⟩, module, by rw [hmodule]; rfl, rfl⟩

/-- Finding the module ends in a crash exactly if the link file cannot be represented. -/
theorem result_plan_eq_crash_iff : (plan tree link source).result = .error (.crash c) ↔
    ∃ fault, parse link.text source = .error (.unbuildable fault) ∧ c = .unbuildable fault := by
  unfold plan step
  simp only [result_bind_eq_ok, result_bind_eq_error, result_atStage_eq_ok, result_atStage_eq_crash,
    result_parseFile_eq_crash_iff, result_ofExcept, result_log, result_pure, mapError_eq_ok,
    mapError_eq_error_iff, reduceCtorEq, and_false, exists_false, exists_const, or_false, false_or,
    true_and]
  refine or_iff_left ?_
  rintro ⟨found, -, node, -, hmodule⟩
  split at hmodule
  · exact absurd (Except.error.inj hmodule) (by simp)
  · contradiction

/-! ## The outcome -/

variable {bytes : Except DiskFault (List UInt8)} {o : Outcome}

/-- What becomes of a link file whose module exports some types. -/
def Plan.outcome (p : Plan) (declarations : List Declaration) : Outcome :=
  if declarations.isEmpty then .unchanged
  else if p.render declarations = p.chunk.source then .unchanged
  else .changed (p.render declarations)

theorem Plan.outcome_eq_changed_iff {declarations : List Declaration} {s : List Char} :
    p.outcome declarations = .changed s ↔
      declarations ≠ [] ∧ p.render declarations = s ∧ s ≠ p.chunk.source := by
  unfold outcome
  cases declarations with
  | nil => simp
  | cons d ds =>
    rw [List.isEmpty_cons, if_neg Bool.false_ne_true]
    split
    · rename_i heq
      refine ⟨nofun, ?_⟩
      rintro ⟨-, rfl, hne⟩
      exact absurd heq hne
    · rename_i hne
      rw [Outcome.changed.injEq]
      refine ⟨?_, fun h => h.2.1⟩
      rintro rfl
      exact ⟨List.cons_ne_nil _ _, rfl, hne⟩

theorem Plan.outcome_eq_unchanged_iff {declarations : List Declaration} :
    p.outcome declarations = .unchanged ↔
      declarations = [] ∨ p.render declarations = p.chunk.source := by
  unfold outcome
  cases declarations <;> simp

@[simp] theorem Plan.problem?_outcome (p : Plan) (declarations : List Declaration) :
    (p.outcome declarations).problem? = none := by
  unfold outcome
  split
  · rfl
  · split <;> rfl

/-- The outcome is settled by the exported types of the module. -/
theorem result_finish : (p.finish link bytes).result =
    p.outcome <$> (atStage p.chunk.source (.ofSpan p.chunk.file p.call.span) .moduleLocated
      (extract p.module bytes)).result := by
  unfold Plan.finish step
  rw [result_bind]
  cases (atStage p.chunk.source (.ofSpan p.chunk.file p.call.span) .moduleLocated
      (extract p.module bytes)).result with
  | error halt => rfl
  | ok declarations =>
    change Logged.result _ = .ok (p.outcome declarations)
    unfold Plan.outcome
    rw [result_bind_eq_ok]
    refine ⟨(), rfl, ?_⟩
    split
    · rfl
    · rw [result_bind_eq_ok]
      refine ⟨⟨⟩, result_forIn _ _ fun _ => rfl, ?_⟩
      dsimp only
      split <;> rfl

theorem result_extract_eq_ok_iff {module : Path} {declarations : List Declaration} :
    (extract module bytes).result = .ok declarations ↔
      ∃ bs source chunk, bytes = .ok bs ∧ Utf8.decode bs = .ok source ∧
        parse module.text source = .ok chunk ∧ declarations = chunk.exports := by
  unfold extract
  simp only [result_bind_eq_ok, result_parseFile, result_ofExcept, result_log, result_pure,
    mapError_eq_ok, Except.ok.injEq, true_and, exists_const]
  constructor
  · rintro ⟨bs, hbytes, source, hsource, chunk, hchunk, rfl⟩
    exact ⟨bs, source, chunk, hbytes, hsource, hchunk, rfl⟩
  · rintro ⟨bs, source, chunk, hbytes, hsource, hchunk, rfl⟩
    exact ⟨bs, hbytes, source, hsource, chunk, hchunk, rfl⟩

/-- Reading the exported types ends in a crash exactly if the module cannot be represented, or its
path cannot be passed to the system. -/
theorem result_extract_eq_crash_iff {module : Path} :
    (extract module bytes).result = .error (.crash c) ↔
      (∃ why, bytes = .error (.unusable why) ∧ c = .disk (.unusable why)) ∨
        ∃ bs source fault, bytes = .ok bs ∧ Utf8.decode bs = .ok source ∧
          parse module.text source = .error (.unbuildable fault) ∧ c = .unbuildable fault := by
  unfold extract
  simp only [result_bind_eq_error, result_parseFile_eq_crash_iff, result_ofExcept, result_log,
    result_pure, mapError_eq_ok, mapError_eq_error_iff, reduceCtorEq, and_false, exists_false,
    or_false, false_or]
  refine or_congr ⟨?_, ?_⟩ ⟨?_, ?_⟩
  · rintro ⟨fault, hbytes, hstop⟩
    cases fault <;> cases hstop
    exact ⟨_, hbytes, rfl⟩
  · rintro ⟨why, hbytes, rfl⟩
    exact ⟨_, hbytes, rfl⟩
  · rintro ⟨bs, hbytes, source, hsource, fault, hfault, rfl⟩
    exact ⟨bs, source, fault, hbytes, hsource, hfault, rfl⟩
  · rintro ⟨bs, source, fault, hbytes, hsource, hfault, rfl⟩
    exact ⟨bs, hbytes, source, hsource, fault, hfault, rfl⟩

/-- A link file has an outcome, other than a problem of its module, exactly if the module is read
and parsed. -/
theorem result_finish_eq_ok_iff : (p.finish link bytes).result = .ok o ↔
    ∃ bs source chunk, bytes = .ok bs ∧ Utf8.decode bs = .ok source ∧
      parse p.module.text source = .ok chunk ∧ o = p.outcome chunk.exports := by
  rw [result_finish]
  constructor
  · intro h
    cases hextract : (atStage p.chunk.source (.ofSpan p.chunk.file p.call.span) .moduleLocated
        (extract p.module bytes)).result with
    | error halt =>
      rw [hextract] at h
      cases h
    | ok declarations =>
      rw [hextract] at h
      cases h
      obtain ⟨bs, source, chunk, hbytes, hsource, hchunk, rfl⟩ :=
        result_extract_eq_ok_iff.1 (result_atStage_eq_ok.1 hextract)
      exact ⟨bs, source, chunk, hbytes, hsource, hchunk, rfl⟩
  · rintro ⟨bs, source, chunk, hbytes, hsource, hchunk, rfl⟩
    rw [result_atStage_eq_ok.2
      (result_extract_eq_ok_iff.2 ⟨bs, source, chunk, hbytes, hsource, hchunk, rfl⟩)]
    rfl

theorem result_finish_eq_crash_iff : (p.finish link bytes).result = .error (.crash c) ↔
    (∃ why, bytes = .error (.unusable why) ∧ c = .disk (.unusable why)) ∨
      ∃ bs source fault, bytes = .ok bs ∧ Utf8.decode bs = .ok source ∧
        parse p.module.text source = .error (.unbuildable fault) ∧ c = .unbuildable fault := by
  rw [result_finish, ← result_extract_eq_crash_iff, ← result_atStage_eq_crash]
  cases (atStage p.chunk.source (.ofSpan p.chunk.file p.call.span) .moduleLocated
    (extract p.module bytes)).result <;> simp [Functor.map, Except.map]

end Plan

end Link

end TypedLinks
