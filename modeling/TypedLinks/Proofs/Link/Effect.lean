import TypedLinks.Link.Process
import TypedLinks.Proofs.Link.Plan
import TypedLinks.Proofs.Text.Encoding
import TypedLinks.Proofs.World.Execution

/-!
# What processing a link file does

The outcome of a link file depends on its text, the tree and the bytes of its module only
(`outcomeOf`), whether the run is dry or not; and the one thing that processing does to the files is
that it writes the new text of a link file that changes (`Effect`).
-/

namespace TypedLinks.Link

open World

/-! ## Outcomes -/

/-- The outcome of work that ended early, or the crash it ends with. -/
def Halt.outcome : Halt → Except Crash Outcome
  | .problem _ p => .ok (.failed p)
  | .crash c => .error c

/-- The outcome of work, or the crash it ends with. -/
def settled : Except Halt Outcome → Except Crash Outcome
  | .error halt => halt.outcome
  | .ok outcome => .ok outcome

/-- What becomes of a link file of the given text in a file system. -/
def updated (fs : FileSystem) (folder : DiskLocation) (tree : Node) (link : Path)
    (source : List Char) : Except Crash Outcome :=
  match (plan tree link source).result with
  | .error halt => halt.outcome
  | .ok p => settled (p.finish link (fs.read folder p.module)).result

/-- What becomes of the link file at a canonical path. -/
def outcomeAt (fs : FileSystem) (folder : DiskLocation) (tree : Node) (link : Path) :
    Except Crash Outcome :=
  match sourceOf link (fs.read folder link) with
  | .error (.crash c) => .error c
  | .error (.problem p) => .ok (.failed p)
  | .ok source => updated fs folder tree link source

/-- What becomes of the link file at a path. -/
def outcomeOf (fs : FileSystem) (folder : DiskLocation) (tree : Node) (p : Path) :
    Except Crash Processed :=
  match fs.withoutLinks folder p with
  | .error fault => .error (.disk fault)
  | .ok link => (⟨link, ·⟩) <$> outcomeAt fs folder tree link

/-- The module of the link file at a canonical path, if the work on it comes that far. -/
def Selects (fs : FileSystem) (folder : DiskLocation) (tree : Node) (link module : Path) : Prop :=
  ∃ source p, sourceOf link (fs.read folder link) = .ok source ∧
    (plan tree link source).result = .ok p ∧ p.module = module

/-- The outcome of a link file depends on its own bytes and on those of its module. -/
theorem outcomeAt_congr {fs fs' : FileSystem} {folder : DiskLocation} {tree : Node} {link : Path}
    (hlink : fs'.read folder link = fs.read folder link)
    (hmodule : ∀ m, Selects fs folder tree link m → fs'.read folder m = fs.read folder m) :
    outcomeAt fs' folder tree link = outcomeAt fs folder tree link := by
  unfold outcomeAt
  rw [hlink]
  cases hsource : sourceOf link (fs.read folder link) with
  | error stop => cases stop <;> rfl
  | ok source =>
    dsimp only
    unfold updated
    cases hplan : (plan tree link source).result with
    | error halt => rfl
    | ok p =>
      dsimp only
      rw [hmodule p.module ⟨source, p, hsource, hplan, rfl⟩]

theorem outcomeOf_eq_ok_iff {fs : FileSystem} {folder : DiskLocation} {tree : Node} {p : Path}
    {x : Processed} : outcomeOf fs folder tree p = .ok x ↔
      fs.withoutLinks folder p = .ok x.link ∧ outcomeAt fs folder tree x.link = .ok x.outcome := by
  obtain ⟨link, outcome⟩ := x
  unfold outcomeOf
  cases fs.withoutLinks folder p with
  | error fault => simp
  | ok link' =>
    dsimp only
    cases ho : outcomeAt fs folder tree link' with
    | error c =>
      refine ⟨nofun, fun ⟨hlink, h⟩ => ?_⟩
      obtain rfl := Except.ok.inj hlink
      rw [ho] at h
      cases h
    | ok o =>
      simp only [Functor.map, Except.map, Except.ok.injEq, Processed.mk.injEq]
      constructor
      · rintro ⟨rfl, rfl⟩
        exact ⟨rfl, ho⟩
      · rintro ⟨rfl, h⟩
        rw [ho] at h
        exact ⟨rfl, Except.ok.inj h⟩

section Texts

variable {fs : FileSystem} {folder : DiskLocation} {tree : Node} {link module : Path}
  {source text : List Char} {p : Plan} {chunk : Luau.Chunk}

theorem sourceOf_encode (link : Path) (source : List Char) :
    sourceOf link (.ok (Utf8.encode source)) = .ok source := by
  change (Utf8.decode (Utf8.encode source)).mapError _ = _
  rw [Utf8.decode_encode]
  rfl

/-- The outcome of a link file that holds a text, where its module holds one. -/
theorem outcomeAt_of_texts (hread : fs.read folder link = .ok (Utf8.encode source))
    (hplan : (plan tree link source).result = .ok p)
    (hmodule : fs.read folder p.module = .ok (Utf8.encode text))
    (hparse : Luau.parse p.module.text text = .ok chunk) :
    outcomeAt fs folder tree link = .ok (p.outcome chunk.exports) := by
  unfold outcomeAt
  rw [hread, sourceOf_encode]
  dsimp only
  unfold updated
  rw [hplan]
  dsimp only
  rw [result_finish_eq_ok_iff.2 ⟨_, text, chunk, hmodule, Utf8.decode_encode _, hparse, rfl⟩]
  rfl

theorem Selects.congr {fs' : FileSystem} {folder' : DiskLocation}
    (h : Selects fs folder tree link module)
    (hread : fs'.read folder' link = fs.read folder link) :
    Selects fs' folder' tree link module := by
  obtain ⟨source, p, hsource, hplan, rfl⟩ := h
  exact ⟨source, p, by rw [hread, hsource], hplan, rfl⟩

theorem Selects.eq_module (h : Selects fs folder tree link module)
    (hread : fs.read folder link = .ok (Utf8.encode source))
    (hplan : (plan tree link source).result = .ok p) : module = p.module := by
  obtain ⟨source', p', hsource, hplan', rfl⟩ := h
  rw [hread, sourceOf_encode] at hsource
  cases hsource
  rw [hplan] at hplan'
  cases hplan'
  rfl

end Texts

/-- A file holds the text of a chunk. -/
def Holds (fs : FileSystem) (folder : DiskLocation) (file : Path) (chunk : Luau.Chunk) : Prop :=
  ∃ bytes text, fs.read folder file = .ok bytes ∧ Utf8.decode bytes = .ok text ∧
    Luau.parse file.text text = .ok chunk

/-- What the work on a link file of a text finds: its plan, and the chunk of its module. -/
structure Finds (fs : FileSystem) (folder : DiskLocation) (tree : Node) (link : Path)
    (source : List Char) (p : Plan) (module : Luau.Chunk) : Prop where
  plan : (plan tree link source).result = .ok p
  module : Holds fs folder p.module module

section Finds

variable {fs fs' : FileSystem} {folder folder' : DiskLocation} {tree : Node} {link file : Path}
  {source : List Char} {p p' : Plan} {module module' chunk chunk' : Luau.Chunk} {o : Outcome}

theorem Holds.unique (h : Holds fs folder file chunk) (h' : Holds fs folder file chunk') :
    chunk' = chunk := by
  obtain ⟨bytes, text, hread, hdecode, hparse⟩ := h
  obtain ⟨bytes', text', hread', hdecode', hparse'⟩ := h'
  obtain rfl := Except.ok.inj (hread.symm.trans hread')
  obtain rfl := Except.ok.inj (hdecode.symm.trans hdecode')
  exact Except.ok.inj (hparse'.symm.trans hparse)

theorem Holds.congr (h : Holds fs folder file chunk)
    (hread : fs'.read folder' file = fs.read folder file) : Holds fs' folder' file chunk := by
  obtain ⟨bytes, text, hbytes, hdecode, hparse⟩ := h
  exact ⟨bytes, text, hread.trans hbytes, hdecode, hparse⟩

/-- The file that a chunk is held by holds its source. -/
theorem Holds.parse (h : Holds fs folder file chunk) :
    Luau.parse file.text chunk.source = .ok chunk := by
  obtain ⟨-, text, -, -, hparse⟩ := h
  rw [Luau.source_of_parse hparse, hparse]

theorem Finds.updated (h : Finds fs folder tree link source p module) :
    updated fs folder tree link source = .ok (p.outcome module.exports) := by
  obtain ⟨bytes, text, hread, hdecode, hparse⟩ := h.module
  unfold Link.updated
  rw [h.plan]
  dsimp only
  rw [result_finish_eq_ok_iff.2 ⟨bytes, text, module, hread, hdecode, hparse, rfl⟩]
  rfl

theorem Finds.outcomeAt (h : Finds fs folder tree link source p module)
    (hsource : sourceOf link (fs.read folder link) = .ok source) :
    outcomeAt fs folder tree link = .ok (p.outcome module.exports) := by
  unfold Link.outcomeAt
  rw [hsource]
  exact h.updated

theorem Finds.unique (h : Finds fs folder tree link source p module)
    (h' : Finds fs folder tree link source p' module') : p' = p ∧ module' = module := by
  obtain rfl := Except.ok.inj (h.plan.symm.trans h'.plan)
  exact ⟨rfl, h.module.unique h'.module⟩

/-- A link file that does not fail has a plan and a module. -/
theorem exists_finds (h : updated fs folder tree link source = .ok o)
    (ho : o.problem? = none) :
    ∃ p module, Finds fs folder tree link source p module ∧ o = p.outcome module.exports := by
  have hhalt {halt : Halt} (h : halt.outcome = .ok o) : False := by
    cases halt with
    | crash c => cases h
    | problem stage p =>
      cases h
      cases ho
  unfold updated at h
  split at h
  · exact (hhalt h).elim
  · rename_i p hplan
    cases hfinish : (p.finish link (fs.read folder p.module)).result with
    | error halt =>
      rw [hfinish] at h
      exact (hhalt h).elim
    | ok o' =>
      rw [hfinish] at h
      obtain rfl : o' = o := Except.ok.inj h
      obtain ⟨bytes, text, module, hread, hdecode, hparse, rfl⟩ := result_finish_eq_ok_iff.1 hfinish
      exact ⟨p, module, ⟨hplan, bytes, text, hread, hdecode, hparse⟩, rfl⟩

/-- A link file that does not fail is read. -/
theorem exists_source (h : outcomeAt fs folder tree link = .ok o) (ho : o.problem? = none) :
    ∃ source, sourceOf link (fs.read folder link) = .ok source ∧
      updated fs folder tree link source = .ok o := by
  unfold outcomeAt at h
  cases hsource : sourceOf link (fs.read folder link) with
  | error stop =>
    rw [hsource] at h
    cases stop with
    | crash c => cases h
    | problem p =>
      cases h
      cases ho
  | ok source =>
    rw [hsource] at h
    exact ⟨source, rfl, h⟩

end Finds

/-- What processing a link file does to a file system, given how it ends: the text of a file that
changes is written, unless the run is dry. -/
inductive Effect (dryRun : Bool) (fs : FileSystem) (folder : DiskLocation) :
    Except Crash Processed → FileSystem → Prop where
  | kept {r : Except Crash Processed}
      (h : ∀ link s, r = .ok ⟨link, .changed s⟩ → dryRun = true) : Effect dryRun fs folder r fs
  | written {fs' : FileSystem} {link : Path} {s : List Char} (wet : dryRun = false)
      (write : fs.write folder link (Utf8.encode s) = .ok fs') :
      Effect dryRun fs folder (.ok ⟨link, .changed s⟩) fs'

/-! ## Running -/

variable {tree : Node} {link : Path} {dryRun : Bool} {w : World}

theorem exec_settle (halt : Halt) (link : Path) (w : World) :
    ∃ w', exec (halt.settle link : ExceptT Crash (StateM World) Outcome) w =
      (halt.outcome, w') ∧ Tells w w' := by
  cases halt with
  | crash c => exact ⟨w, rfl, .refl w⟩
  | problem stage p =>
    exact ⟨_, rfl, (tells_write (.log ⟨.debug, Stage.stepMessage link stage .failed⟩) w).trans
      (tells_write (.log ⟨.error, link.text ++ ": " ++ p.message⟩) _)⟩

theorem exec_update (tree : Node) (link : Path) (source : List Char) (w : World) :
    ∃ w', exec (update tree link source : ExceptT Crash (StateM World) Outcome) w =
      (updated w.files w.folder tree link source, w') ∧ Tells w w' := by
  obtain ⟨w₁, hplan, htold⟩ := perform_eq (plan tree link source) w
  unfold update updated
  rw [exec_bind, exec_lift, hplan]
  cases (plan tree link source).result with
  | error halt =>
    obtain ⟨w₂, hsettle, htold'⟩ := exec_settle halt link w₁
    exact ⟨w₂, hsettle, htold.trans htold'⟩
  | ok p =>
    have hread : exec (liftM (Disk.read p.module : StateM World _)) w₁ =
        ((.ok (w.files.read w.folder p.module) : Except Crash _), w₁) := by
      rw [← htold.files, ← htold.folder]
      rfl
    obtain ⟨w₂, hfinish, htold'⟩ := perform_eq (p.finish link (w.files.read w.folder p.module)) w₁
    dsimp only
    rw [exec_bind_of_ok hread, exec_bind, exec_lift, hfinish]
    cases (p.finish link (w.files.read w.folder p.module)).result with
    | error halt =>
      obtain ⟨w₃, hsettle, htold''⟩ := exec_settle halt link w₂
      exact ⟨w₃, hsettle, (htold.trans htold').trans htold''⟩
    | ok outcome => exact ⟨w₂, rfl, htold.trans htold'⟩

/-- A link file that was read is processed to its outcome, and written if that is a change. -/
theorem exec_processSource {bytes : List UInt8} (source : List Char)
    (hread : w.files.read w.folder link = .ok bytes) :
    ∃ w', exec (processSource dryRun tree link source : ExceptT Crash (StateM World) Outcome) w =
        (updated w.files w.folder tree link source, w') ∧ w'.folder = w.folder ∧
      Effect dryRun w.files w.folder
        ((⟨link, ·⟩) <$> updated w.files w.folder tree link source) w'.files := by
  obtain ⟨w₁, hupdate, htold⟩ := exec_update tree link source w
  unfold processSource
  rw [exec_bind, hupdate]
  rcases updated w.files w.folder tree link source with c | outcome
  · exact ⟨w₁, rfl, htold.folder, htold.files ▸ .kept (by rintro _ _ ⟨⟩)⟩
  cases outcome with
  | unchanged => exact ⟨w₁, rfl, htold.folder, htold.files ▸ .kept (by rintro _ _ ⟨⟩)⟩
  | failed p => exact ⟨w₁, rfl, htold.folder, htold.files ▸ .kept (by rintro _ _ ⟨⟩)⟩
  | changed s =>
    cases dryRun with
    | true => exact ⟨_, rfl, htold.folder, htold.files ▸ .kept fun _ _ _ => rfl⟩
    | false =>
      obtain ⟨l, -, -, hwrite⟩ := FileSystem.write_of_read hread (Utf8.encode s)
      have hsaved : (Disk.write link (Utf8.encode s) : StateM World _) w₁ =
          (.ok (), { w₁ with files := w.files.put l (.file (Utf8.encode s)) }) :=
        write_of_eq_ok (by rw [htold.files, htold.folder, hwrite])
      refine ⟨{ w₁ with files := w.files.put l (.file (Utf8.encode s)) }, ?_, htold.folder,
        .written rfl hwrite⟩
      change exec (save link (.changed s)) w₁ = _
      unfold save
      rw [exec_bind, exec_lift, hsaved]
      rfl

theorem exec_processLink (dryRun : Bool) (tree : Node) (link : Path) (w : World) :
    ∃ w', exec (processLink dryRun tree link : ExceptT Crash (StateM World) Outcome) w =
        (outcomeAt w.files w.folder tree link, w') ∧ w'.folder = w.folder ∧
      Effect dryRun w.files w.folder ((⟨link, ·⟩) <$> outcomeAt w.files w.folder tree link)
        w'.files := by
  have htold := tells_write (.log ⟨.info, "Mutating " ++ link.text⟩) w
  generalize hw₁ : ((Journal.write (Remark.log ⟨.info, "Mutating " ++ link.text⟩) :
    StateM World Unit) w).2 = w₁ at htold
  have hstart : exec (processLink dryRun tree link : ExceptT Crash (StateM World) Outcome) w =
      exec (match sourceOf link (w.files.read w.folder link) with
        | .error (.crash c) => throw c
        | .error (.problem p) => fail p
        | .ok source => processSource dryRun tree link source) w₁ := by
    rw [← hw₁]
    rfl
  unfold outcomeAt
  rw [hstart]
  cases hsource : sourceOf link (w.files.read w.folder link) with
  | error stop =>
    cases stop with
    | crash c => exact ⟨w₁, rfl, htold.folder, htold.files ▸ .kept (by rintro _ _ ⟨⟩)⟩
    | problem p =>
      have htold' := htold.trans (tells_write (.log ⟨.error, p.message⟩) w₁)
      exact ⟨_, rfl, htold'.folder, htold'.files ▸ .kept (by rintro _ _ ⟨⟩)⟩
  | ok source =>
    obtain ⟨bytes, hread⟩ : ∃ bytes, w.files.read w.folder link = .ok bytes := by
      cases hread : w.files.read w.folder link with
      | error fault =>
        rw [hread] at hsource
        cases hsource
      | ok bytes => exact ⟨bytes, rfl⟩
    obtain ⟨w', hexec, hfolder, heffect⟩ := @exec_processSource tree link dryRun w₁ bytes source
      (by rw [htold.files, htold.folder, hread])
    rw [htold.files, htold.folder] at *
    exact ⟨w', hexec, hfolder, heffect⟩

/-- A link file is processed to its outcome, and nothing but its own new text is written. -/
theorem exec_process (dryRun : Bool) (tree : Node) (p : Path) (w : World) :
    ∃ w', exec (process dryRun tree p : ExceptT Crash (StateM World) Processed) w =
        (outcomeOf w.files w.folder tree p, w') ∧ w'.folder = w.folder ∧
      Effect dryRun w.files w.folder (outcomeOf w.files w.folder tree p) w'.files := by
  have hstart : exec (process dryRun tree p : ExceptT Crash (StateM World) Processed) w =
      exec (match w.files.withoutLinks w.folder p with
        | .error fault => throw (.disk fault)
        | .ok link => return ⟨link, ← processLink dryRun tree link⟩) w := rfl
  unfold outcomeOf
  rw [hstart]
  cases w.files.withoutLinks w.folder p with
  | error fault => exact ⟨w, rfl, rfl, .kept (by rintro _ _ ⟨⟩)⟩
  | ok link =>
    obtain ⟨w', hexec, hfolder, heffect⟩ := exec_processLink dryRun tree link w
    refine ⟨w', ?_, hfolder, heffect⟩
    dsimp only
    rw [exec_bind, hexec]
    cases outcomeAt w.files w.folder tree link <;> rfl

end TypedLinks.Link
