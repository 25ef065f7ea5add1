import TypedLinks.Proofs.Disk.Shape
import TypedLinks.World

/-!
# Work in a world

What some work gives in a world and the world that it leaves. Most work only asks the disk and tells
the journal: the files stay as they are, and what was written to the journal before stays there.
-/

namespace TypedLinks.World

variable {ε α β : Type} {w w' w'' : World}

/-! ## Results -/

theorem eq_ok_of_toOption {r : Except ε α} {a : α} (h : r.toOption = some a) : r = .ok a := by
  cases r with
  | error e => cases h
  | ok b => exact congrArg Except.ok (Option.some.inj h)

/-- What some work gives in a world, and the world that it leaves. -/
def exec (x : ExceptT ε (StateM World) α) (w : World) : Except ε α × World := x.run w

theorem exec_bind (x : ExceptT ε (StateM World) α) (f : α → ExceptT ε (StateM World) β)
    (w : World) :
    exec (x >>= f) w = match exec x w with
      | (.ok a, w') => exec (f a) w'
      | (.error e, w') => (.error e, w') := by
  change (match x.run w with
    | (r, w') => (ExceptT.bindCont f r : StateM World (Except ε β)) w') = _
  unfold exec
  rcases x.run w with ⟨r | r, w'⟩ <;> rfl

theorem exec_bind_of_ok {x : ExceptT ε (StateM World) α} {f : α → ExceptT ε (StateM World) β}
    {a : α} (h : exec x w = (.ok a, w')) : exec (x >>= f) w = exec (f a) w' := by
  rw [exec_bind, h]

theorem exec_bind_of_error {x : ExceptT ε (StateM World) α}
    {f : α → ExceptT ε (StateM World) β} {e : ε} (h : exec x w = (.error e, w')) :
    exec (x >>= f) w = (.error e, w') := by
  rw [exec_bind, h]

theorem exec_lift (x : StateM World α) (w : World) :
    exec (liftM x : ExceptT ε (StateM World) α) w = (.ok (x w).1, (x w).2) := rfl

/-- Work of which the result is looked at. -/
theorem exec_lift_run {ε' : Type} (x : ExceptT ε (StateM World) α) (w : World) :
    exec (liftM x.run : ExceptT ε' (StateM World) (Except ε α)) w =
      (.ok (exec x w).1, (exec x w).2) := rfl

/-! ## Telling the journal -/

/-- The second world differs from the first by further remarks only. -/
def Tells (w w' : World) : Prop := ∃ remarks, w' = { w with remarks := w.remarks ++ remarks }

namespace Tells

theorem refl (w : World) : Tells w w := ⟨[], by rw [List.append_nil]⟩

theorem trans (h : Tells w w') (h' : Tells w' w'') : Tells w w'' := by
  obtain ⟨r, rfl⟩ := h
  obtain ⟨r', rfl⟩ := h'
  exact ⟨r ++ r', by rw [List.append_assoc]⟩

theorem files (h : Tells w w') : w'.files = w.files := by
  obtain ⟨r, rfl⟩ := h
  rfl

theorem folder (h : Tells w w') : w'.folder = w.folder := by
  obtain ⟨r, rfl⟩ := h
  rfl

end Tells

theorem tells_write (remark : Remark) (w : World) :
    Tells w ((Journal.write remark : StateM World Unit) w).2 := ⟨[remark], rfl⟩

/-- Logged work gives its result and tells its lines. -/
theorem perform_eq (x : Logged ε α) (w : World) :
    ∃ w', (x.perform : StateM World (Except ε α)) w = (x.result, w') ∧ Tells w w' := by
  have hlines (lines : List LogLine) (w : World) :
      Tells w ((forIn lines PUnit.unit fun line (_ : PUnit) => do
        (Journal.write (Remark.log line) : StateM World Unit)
        return ForInStep.yield PUnit.unit) w).2 := by
    induction lines generalizing w with
    | nil => exact .refl w
    | cons line lines ih =>
      rw [List.forIn_cons]
      exact (tells_write (.log line) w).trans (ih _)
  exact ⟨_, rfl, hlines x.lines w⟩

/-! ## Writing a file -/

theorem write_of_eq_ok {p : Path} {bytes : List UInt8} {files : FileSystem}
    (h : w.files.write w.folder p bytes = .ok files) :
    (Disk.write p bytes : StateM World _) w = (.ok (), { w with files }) := by
  have hquery : query (·.write · p bytes) w = (.ok files, w) := congrArg (·, w) h
  simp only [Disk.write, bind, StateT.bind, hquery]
  rfl

/-! ## Work that writes nothing -/

/-- Work that leaves the files as they are. -/
def OnlyTells (x : ExceptT ε (StateM World) α) : Prop := ∀ w, Tells w (exec x w).2

/-- Work that leaves the world as it is, and gives the same in worlds of one shape. -/
structure Asks (x : ExceptT ε (StateM World) α) : Prop where
  still : ∀ w, (exec x w).2 = w
  same : ∀ w w' : World, w.files.SameShape w'.files → w'.folder = w.folder →
    (exec x w).1 = (exec x w').1

section Closure

variable {x : ExceptT ε (StateM World) α} {f : α → ExceptT ε (StateM World) β}


theorem onlyTells_lift {y : StateM World α} (h : ∀ w, Tells w (y w).2) :
    OnlyTells (liftM y : ExceptT ε (StateM World) α) := h

theorem OnlyTells.bind (hx : OnlyTells x) (hf : ∀ a, OnlyTells (f a)) : OnlyTells (x >>= f) := by
  intro w
  have hw := hx w
  rw [exec_bind]
  rcases h : exec x w with ⟨e | a, w'⟩ <;> rw [h] at hw
  · exact hw
  · exact hw.trans (hf a w')

theorem asks_pure (a : α) : Asks (pure a : ExceptT ε (StateM World) α) :=
  ⟨fun _ => rfl, fun _ _ _ _ => rfl⟩

theorem asks_throw (e : ε) : Asks (throw e : ExceptT ε (StateM World) α) :=
  ⟨fun _ => rfl, fun _ _ _ _ => rfl⟩

/-- A question to the disk whose answer depends on the shape of the file system only. -/
theorem asks_query {q : FileSystem → DiskLocation → Except ε α}
    (h : ∀ fs fs' l, fs.SameShape fs' → q fs l = q fs' l) :
    Asks (ExceptT.mk (query q)) :=
  ⟨fun _ => rfl, fun w w' hshape hfolder => by
    change q w.files w.folder = q w'.files w'.folder
    rw [hfolder, h _ _ _ hshape]⟩

theorem Asks.bind (hx : Asks x) (hf : ∀ a, Asks (f a)) : Asks (x >>= f) := by
  refine ⟨fun w => ?_, fun w w' hshape hfolder => ?_⟩
  · have hw := hx.still w
    rw [exec_bind]
    rcases h : exec x w with ⟨e | a, w₁⟩ <;> rw [h] at hw <;> obtain rfl : w₁ = w := hw
    · rfl
    · exact (hf a).still _
  · have hsame := hx.same w w' hshape hfolder
    have hw := hx.still w
    have hw' := hx.still w'
    rw [exec_bind, exec_bind]
    rcases h : exec x w with ⟨r, w₁⟩
    rcases h' : exec x w' with ⟨r', w₂⟩
    rw [h] at hw hsame
    rw [h'] at hw' hsame
    obtain rfl : w₁ = w := hw
    obtain rfl : w₂ = w' := hw'
    obtain rfl : r = r' := hsame
    cases r with
    | error e => rfl
    | ok a => exact (hf a).same _ _ hshape hfolder

/-- Work of which the result is looked at asks what the work itself asks. -/
theorem Asks.lift {ε' : Type} (hx : Asks x) :
    Asks (liftM x.run : ExceptT ε' (StateM World) (Except ε α)) :=
  ⟨hx.still, fun w w' hshape hfolder => congrArg Except.ok (hx.same w w' hshape hfolder)⟩

theorem Asks.onlyTells (hx : Asks x) : OnlyTells x := fun w => by
  rw [hx.still w]
  exact .refl w

end Closure

end TypedLinks.World
