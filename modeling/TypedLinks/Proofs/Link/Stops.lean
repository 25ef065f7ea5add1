import TypedLinks.Proofs.Link.Effect
import TypedLinks.Proofs.Syntax.Building

/-!
# When a link file stops the run

Every fault of a link file or of its module is an outcome, with two exceptions: a path that cannot
be passed to the system, and a text with a string literal that stands for nothing.
-/

namespace TypedLinks

theorem Path.text_ne_nil (p : Path) : p.text ≠ [] := by
  unfold Path.text
  split
  · decide
  · assumption

namespace Link

open Luau

/-- Whether a file is parsed but holds a string literal that cannot be decoded. -/
def Undecodable (file : Path) (source : List Char) : Prop :=
  ∃ fault, parse file.text source = .error (.unbuildable (.badString fault))

theorem undecodable_iff {file : Path} {source : List Char} :
    Undecodable file source ↔ ∃ fault, parse file.text source = .error (.unbuildable fault) := by
  constructor
  · rintro ⟨fault, h⟩
    exact ⟨_, h⟩
  · rintro ⟨fault, h⟩
    obtain ⟨f, rfl⟩ := badString_of_parse file.text_ne_nil h
    exact ⟨f, h⟩

variable {fs : FileSystem} {folder : DiskLocation} {tree : Node} {p link : Path}
  {source : List Char}

/-- What stops the run at a link file of a given text. -/
inductive StopsText (fs : FileSystem) (folder : DiskLocation) (tree : Node) (link : Path)
    (source : List Char) : Prop where
  /-- The link file itself holds a string literal that cannot be decoded. -/
  | link (h : Undecodable link source)
  /-- The path of its module cannot be passed to the system. -/
  | modulePath {p : Plan} {why : Unusable} (hplan : (plan tree link source).result = .ok p)
      (h : fs.read folder p.module = .error (.unusable why))
  /-- Its module holds a string literal that cannot be decoded. -/
  | module {p : Plan} {bytes : List UInt8} {text : List Char}
      (hplan : (plan tree link source).result = .ok p)
      (hread : fs.read folder p.module = .ok bytes) (hdecode : Utf8.decode bytes = .ok text)
      (h : Undecodable p.module text)

/-- What stops the run at a link file. -/
inductive Stops (fs : FileSystem) (folder : DiskLocation) (tree : Node) (p : Path) : Prop where
  /-- It has no canonical path. -/
  | unresolved {fault : DiskFault} (h : fs.withoutLinks folder p = .error fault)
  /-- Its canonical path cannot be passed to the system. -/
  | path {link : Path} {why : Unusable} (hlink : fs.withoutLinks folder p = .ok link)
      (h : fs.read folder link = .error (.unusable why))
  /-- It is read, and its text stops the run. -/
  | text {link : Path} {bytes : List UInt8} {source : List Char}
      (hlink : fs.withoutLinks folder p = .ok link) (hread : fs.read folder link = .ok bytes)
      (hdecode : Utf8.decode bytes = .ok source) (h : StopsText fs folder tree link source)

theorem settled_eq_error_iff {r : Except Halt Outcome} {c : Crash} :
    settled r = .error c ↔ r = .error (.crash c) := by
  rcases r with (_ | _) | _ <;> simp [settled, Halt.outcome]

theorem result_plan_of_undecodable (tree : Node) (h : Undecodable link source) :
    ∃ c, (plan tree link source).result = .error (.crash c) := by
  obtain ⟨fault, h⟩ := h
  exact ⟨_, result_plan_eq_crash_iff.2 ⟨_, h, rfl⟩⟩

theorem updated_eq_error_iff :
    (∃ c, updated fs folder tree link source = .error c) ↔ StopsText fs folder tree link source := by
  unfold updated
  cases hplan : (plan tree link source).result with
  | error halt =>
    constructor
    · rintro ⟨c, h⟩
      obtain rfl : halt = .crash c := Except.error.inj (settled_eq_error_iff (r := .error halt).1 h)
      obtain ⟨fault, hfault, -⟩ := result_plan_eq_crash_iff.1 hplan
      exact .link (undecodable_iff.2 ⟨fault, hfault⟩)
    · rintro (h | ⟨hplan', -⟩ | ⟨hplan', -⟩)
      · obtain ⟨c, hcrash⟩ := result_plan_of_undecodable tree h
        obtain rfl : halt = .crash c := Except.error.inj (hplan.symm.trans hcrash)
        exact ⟨c, rfl⟩
      · rw [hplan] at hplan'
        contradiction
      · rw [hplan] at hplan'
        contradiction
  | ok p =>
    simp only [settled_eq_error_iff, result_finish_eq_crash_iff]
    constructor
    · rintro ⟨c, ⟨why, hread, -⟩ | ⟨bytes, text, fault, hread, hdecode, hfault, -⟩⟩
      · exact .modulePath hplan hread
      · exact .module hplan hread hdecode (undecodable_iff.2 ⟨fault, hfault⟩)
    · rintro (h | ⟨hplan', hread⟩ | ⟨hplan', hread, hdecode, ⟨fault, h⟩⟩)
      · obtain ⟨c, hcrash⟩ := result_plan_of_undecodable tree h
        rw [hplan] at hcrash
        contradiction
      · obtain rfl := Except.ok.inj (hplan.symm.trans hplan')
        exact ⟨_, .inl ⟨_, hread, rfl⟩⟩
      · obtain rfl := Except.ok.inj (hplan.symm.trans hplan')
        exact ⟨_, .inr ⟨_, _, _, hread, hdecode, h, rfl⟩⟩

theorem sourceOf_eq_crash_iff {bytes : Except DiskFault (List UInt8)} {c : Crash} :
    sourceOf link bytes = .error (.crash c) ↔
      ∃ why, bytes = .error (.unusable why) ∧ c = .disk (.unusable why) := by
  unfold sourceOf
  rcases bytes with (_ | _ | why) | bs
  · simp [Except.mapError, bind, Except.bind, DiskFault.stop]
  · simp [Except.mapError, bind, Except.bind, DiskFault.stop]
  · simp [Except.mapError, bind, Except.bind, DiskFault.stop, eq_comm]
  · simp only [Except.mapError, bind, Except.bind]
    cases Utf8.decode bs <;> simp

theorem sourceOf_eq_ok_iff {bytes : Except DiskFault (List UInt8)} :
    sourceOf link bytes = .ok source ↔ ∃ bs, bytes = .ok bs ∧ Utf8.decode bs = .ok source := by
  unfold sourceOf
  rcases bytes with fault | bs
  · simp [Except.mapError, bind, Except.bind]
  · simp only [Except.mapError, bind, Except.bind]
    cases hbs : Utf8.decode bs <;> simp [hbs]

/-- A link file has an outcome unless it stops the run. -/
theorem outcomeOf_eq_error_iff :
    (∃ c, outcomeOf fs folder tree p = .error c) ↔ Stops fs folder tree p := by
  unfold outcomeOf
  cases hlink : fs.withoutLinks folder p with
  | error fault => exact ⟨fun _ => .unresolved hlink, fun _ => ⟨_, rfl⟩⟩
  | ok link =>
    have houtcome : (∃ c, (⟨link, ·⟩ : Outcome → Processed) <$> outcomeAt fs folder tree link =
        .error c) ↔ ∃ c, outcomeAt fs folder tree link = .error c := by
      cases outcomeAt fs folder tree link <;> simp [Functor.map, Except.map]
    dsimp only
    rw [houtcome]
    unfold outcomeAt
    constructor
    · rintro ⟨c, h⟩
      split at h
      · rename_i c' hsource
        obtain ⟨why, hread, -⟩ := sourceOf_eq_crash_iff.1 hsource
        exact .path hlink hread
      · contradiction
      · rename_i source hsource
        obtain ⟨bytes, hread, hdecode⟩ := sourceOf_eq_ok_iff.1 hsource
        exact .text hlink hread hdecode (updated_eq_error_iff.1 ⟨c, h⟩)
    · rintro (h | ⟨hlink', hread⟩ | ⟨hlink', hread, hdecode, h⟩)
      · rw [hlink] at h
        contradiction
      · obtain rfl := Except.ok.inj (hlink.symm.trans hlink')
        rw [sourceOf_eq_crash_iff.2 ⟨_, hread, rfl⟩]
        exact ⟨_, rfl⟩
      · obtain rfl := Except.ok.inj (hlink.symm.trans hlink')
        rw [sourceOf_eq_ok_iff.2 ⟨_, hread, hdecode⟩]
        exact updated_eq_error_iff.2 h

end Link

end TypedLinks
