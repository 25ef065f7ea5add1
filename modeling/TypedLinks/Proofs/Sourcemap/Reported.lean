import TypedLinks.Proofs.Disk.Usable
import TypedLinks.Proofs.Json.Reading
import TypedLinks.Proofs.Packages.Frame
import TypedLinks.Proofs.Sourcemap.Canonical
import TypedLinks.Proofs.Sourcemap.Paths

/-!
# Bad sourcemaps are reported

A sourcemap that cannot be used ends the run with a diagnostic and the status 1, with three
exceptions: its bytes are no UTF-8, it holds an integer with more digits than are converted, or it
lists a path that cannot be passed on to the system. For these there is no diagnostic.
-/

namespace TypedLinks

open World

/-- A sourcemap, or a problem of a kind that is reported. -/
def Node.Reports (kind : Problem.Kind) : Except Stop Node → Prop
  | .ok _ => True
  | .error (.problem p) => p.kind = kind
  | .error (.crash _) => False

namespace Node

/-! ## Reading the file -/

/-- The bytes of a file of which it is not reported why they hold no sourcemap: they are not those
of any text, or the reader comes to an integer that is too long. -/
inductive Illegible : List UInt8 → Prop where
  | notText {bytes : List UInt8} (h : ∀ s, bytes ≠ Utf8.encode s) : Illegible bytes
  | longInteger {s : List Char} {f : Json.Fault} (h : Json.read (unifyLineEnds s) = .error f)
      (kind : f.kind = .integerTooLong) (written : Json.LongIntegerAt (unifyLineEnds s) f.offset) :
      Illegible (Utf8.encode s)

/-- A single byte that starts no sequence. -/
example : Illegible [0xFF] := by
  refine .notText fun s hs => ?_
  have hdecode := Utf8.decode_encode s
  rw [← hs] at hdecode
  cases hdecode

section Reading

variable {path : Path} {bytes : List UInt8} {s : List Char} {f : Json.Fault}

theorem reports_jsonStop {document : List Char} :
    Reports .sourcemap (.error (jsonStop path document f)) ↔ f.kind ≠ .integerTooLong := by
  unfold jsonStop
  split
  · rename_i hkind
    exact ⟨False.elim, fun h => h hkind⟩
  · rename_i hkind
    exact ⟨fun _ => hkind, fun _ => rfl⟩

theorem reports_ofJson {json : Json} :
    Reports .sourcemap ((ofJson topPlace json).mapError fun fault => .problem fault.problem) := by
  cases ofJson topPlace json with
  | error fault => exact (rfl : fault.problem.kind = .sourcemap)
  | ok tree => trivial

theorem result_of_undecodable {fault : Utf8.Fault} (h : Utf8.decode bytes = .error fault) :
    (ofBytes path (.ok bytes)).result = .error (.crash (.undecodable fault)) := by
  unfold ofBytes
  simp only [Logged.result_ofExcept, Except.mapError, bind, h]

theorem result_of_decoded (h : Utf8.decode bytes = .ok s) : (ofBytes path (.ok bytes)).result =
    ((Json.read (unifyLineEnds s)).mapError (jsonStop path (unifyLineEnds s)) >>= fun json =>
      (ofJson topPlace json).mapError fun fault => .problem fault.problem) := by
  unfold ofBytes
  simp only [Logged.result_ofExcept, Except.mapError, bind, Except.bind, h]
  cases Json.read (unifyLineEnds s) with
  | error f => rfl
  | ok json =>
    dsimp only
    cases ofJson topPlace json <;> rfl

/-- It is reported why a text is no sourcemap, unless its reader comes to a long integer. -/
theorem reports_ofBytes_encode : Reports .sourcemap (ofBytes path (.ok (Utf8.encode s))).result ↔
    ∀ f, Json.read (unifyLineEnds s) = .error f → f.kind ≠ .integerTooLong := by
  rw [result_of_decoded (Utf8.decode_encode s)]
  cases hread : Json.read (unifyLineEnds s) with
  | error f =>
    refine reports_jsonStop.trans ⟨fun h f' hf' => ?_, fun h => h f rfl⟩
    cases hf'
    exact h
  | ok json =>
    constructor
    · intro _ f hf
      cases hf
    · exact fun _ => reports_ofJson

/-- It is reported of the bytes of a file why they hold no sourcemap, unless they are illegible. -/
theorem reports_ofBytes_iff :
    Reports .sourcemap (ofBytes path (.ok bytes)).result ↔ ¬Illegible bytes := by
  by_cases htext : ∃ s, bytes = Utf8.encode s
  · obtain ⟨s, rfl⟩ := htext
    rw [reports_ofBytes_encode]
    constructor
    · intro h hillegible
      generalize hbytes : Utf8.encode s = bytes at hillegible
      cases hillegible with
      | notText hnot => exact hnot s hbytes.symm
      | @longInteger s' f hread hkind =>
        obtain rfl : s = s' := Utf8.encode_injective hbytes
        exact h f hread hkind
    · intro h f hread hkind
      exact h (.longInteger hread hkind (Json.longIntegerAt_of_read hread hkind))
  · have hnot : ∀ s, bytes ≠ Utf8.encode s := fun s hs => htext ⟨s, hs⟩
    refine ⟨fun h => ?_, fun h => absurd (.notText hnot) h⟩
    cases hdecode : Utf8.decode bytes with
    | error fault =>
      rw [result_of_undecodable hdecode] at h
      exact h.elim
    | ok s => exact absurd (Utf8.decode_eq_ok_iff.1 hdecode) (hnot s)

/-- A sourcemap file that cannot be read is reported if its path can be passed on. -/
theorem reports_unread {fs : FileSystem} {folder : DiskLocation} {fault : DiskFault}
    (h : fs.read folder path = .error fault) :
    Reports .sourcemap (ofBytes path (.error fault)).result ↔ path.text.Usable := by
  have hresult : (ofBytes path (.error fault)).result = .error (unreadStop path fault) := by
    unfold ofBytes
    simp only [Logged.result_ofExcept, Except.mapError, bind]
  rw [hresult]
  rcases FileSystem.cases_of_read h with ⟨husable, refusal, text, rfl⟩ | ⟨hunusable, why, rfl⟩
  · exact ⟨fun _ => husable, fun _ => rfl⟩
  · exact ⟨False.elim, fun husable => hunusable husable⟩

theorem exec_load (path : Path) (w : World) :
    ∃ w', exec (load path : ExceptT Stop (StateM World) Node) w =
      ((ofBytes path (w.files.read w.folder path)).result, w') ∧ Tells w w' :=
  perform_eq (ofBytes path (w.files.read w.folder path)) w

/-- What is wrong with a sourcemap file is reported, unless its path cannot be passed on or its
bytes are illegible. -/
theorem reports_load_iff (path : Path) (w : World) :
    Reports .sourcemap (exec (load path : ExceptT Stop (StateM World) Node) w).1 ↔
      path.text.Usable ∧ ∀ bytes, w.files.read w.folder path = .ok bytes → ¬Illegible bytes := by
  obtain ⟨w', hexec, -⟩ := exec_load path w
  rw [hexec]
  cases hread : w.files.read w.folder path with
  | error fault =>
    refine (reports_unread hread).trans ⟨fun h => ⟨h, fun bytes hbytes => ?_⟩, And.left⟩
    cases hbytes
  | ok bytes =>
    refine reports_ofBytes_iff.trans ⟨fun h => ⟨FileSystem.usable_of_read hread, ?_⟩, ?_⟩
    · rintro _ ⟨⟩
      exact h
    · exact fun h => h.2 bytes rfl

end Reading

/-! ## Canonical paths -/

section Canonical

variable [Disk Id] {folder : Path} {tree : Node}

/-- The path in the place of a path of a sourcemap is its canonical path. -/
theorem canonicalize_eq_mapPaths (folder : Path) : ∃ f : Path → ExceptT Stop Id Path,
    (∀ p, (f p).run = (real (folder.join p)).mapError (DiskFault.stop (staleProblem p))) ∧
      ∀ tree, canonicalize folder tree = tree.mapPaths f := by
  refine ⟨_, fun p => ?_, fun tree => rfl⟩
  change (ExceptT.lift (m := Id) (real (folder.join p)) >>= _ : ExceptT Stop Id Path).run = _
  cases real (folder.join p) <;> rfl

/-- A sourcemap is not made canonical if one of its paths is not; the first of these says why. -/
theorem canonicalize_eq_error_iff {stop : Stop} :
    (canonicalize folder tree : ExceptT Stop Id Node).run = Except.error stop ↔
      ∃ before p after fault, tree.allPaths = before ++ p :: after ∧
        (∀ q ∈ before, ∃ r, real (folder.join q) = .ok r) ∧
        real (folder.join p) = .error fault ∧ stop = fault.stop (staleProblem p) := by
  obtain ⟨f, hf, hcanonicalize⟩ := canonicalize_eq_mapPaths folder
  have hok (q : Path) : (∃ r, (f q).run = Except.ok r) ↔ ∃ r, real (folder.join q) = .ok r := by
    rw [hf]
    cases real (folder.join q) <;> simp [Except.mapError]
  rw [hcanonicalize, run_mapPaths_eq_error_iff]
  constructor
  · rintro ⟨before, p, after, hpaths, hbefore, hp⟩
    rw [hf] at hp
    cases hreal : real (folder.join p) with
    | ok r =>
      rw [hreal] at hp
      cases hp
    | error fault =>
      rw [hreal] at hp
      cases hp
      exact ⟨before, p, after, fault, hpaths, fun q hq => (hok q).1 (hbefore q hq), hreal, rfl⟩
  · rintro ⟨before, p, after, fault, hpaths, hbefore, hp, rfl⟩
    refine ⟨before, p, after, hpaths, fun q hq => (hok q).2 (hbefore q hq), ?_⟩
    rw [hf, hp]
    rfl

/-- A sourcemap is made canonical or its first path for which this fails is reported, unless that
path cannot be passed on. -/
theorem reports_canonicalize_iff :
    Reports .staleSourcemap (canonicalize folder tree : ExceptT Stop Id Node).run ↔
      ∀ before p after, tree.allPaths = before ++ p :: after →
        (∀ q ∈ before, ∃ r, real (folder.join q) = .ok r) →
        ∀ why, real (folder.join p) ≠ .error (.unusable why) := by
  constructor
  · intro h before p after hpaths hbefore why hp
    rw [canonicalize_eq_error_iff.2 ⟨before, p, after, _, hpaths, hbefore, hp, rfl⟩] at h
    exact h
  · intro h
    cases hrun : (canonicalize folder tree : ExceptT Stop Id Node).run with
    | ok tree' => trivial
    | error stop =>
      obtain ⟨before, p, after, fault, hpaths, hbefore, hp, rfl⟩ :=
        canonicalize_eq_error_iff.1 hrun
      cases fault with
      | refused refusal text => rfl
      | cycle text => rfl
      | unusable why => exact absurd hp (h before p after hpaths hbefore why)

end Canonical

/-- On a file system whose links lead to paths that can be passed on, whatever is wrong with the
paths of a sourcemap is reported if they can be passed on. -/
theorem reports_canonicalize_of_usable {w : World} {folder : Path} {tree : Node}
    (hlinks : w.files.UsableLinks) (hfolder : folder.Usable) (h : ∀ p ∈ tree.allPaths, p.Usable) :
    Reports .staleSourcemap
      (exec (canonicalize folder tree : ExceptT Stop (StateM World) Node) w).1 := by
  let := w.frozen
  rw [exec_canonicalize]
  refine reports_canonicalize_iff.2 fun before p after hpaths _ why hp => ?_
  have husable := hfolder.join (h p (hpaths ▸ List.mem_append_right _ List.mem_cons_self))
  have haccepts : FileSystem.Accepts (fun _ => True)
      (w.files.resolveFrom true w.folder (folder.join p)) :=
    FileSystem.accepts_resolveFrom hlinks husable
  change w.files.resolveFrom true w.folder (folder.join p) = _ at hp
  rw [hp] at haccepts
  exact haccepts why rfl

end Node

/-! ## Runs -/

namespace CommandLine

section Execute

variable {o : Options} {sourcemap : Path} {w w' : World} {tree : Node} {stop : Stop}

/-- How a run ends that is stopped: a problem is told, and nothing else changes and the status is 1;
a crash leaves the run without a status. -/
def Ends (color : Bool) (o : Options) (w : World) : Stop → Prop
  | .problem p => ∃ remarks, exec (execute color o : ExceptT Crash (StateM World) Nat) w =
      (.ok 1, { w with remarks := w.remarks ++ remarks ++ [.plain (fatalLines p)] })
  | .crash c => (exec (execute color o : ExceptT Crash (StateM World) Nat) w).1 = .error c

theorem ends_of_work (color : Bool) (htold : Tells w w')
    (h : exec (work o : ExceptT Stop (StateM World) Batch) w = (.error stop, w')) :
    Ends color o w stop := by
  obtain ⟨remarks, rfl⟩ := htold
  cases stop with
  | problem p => exact ⟨remarks, exec_execute_of_problem color o h⟩
  | crash c =>
    change (exec (execute color o : ExceptT Crash (StateM World) Nat) w).1 = _
    unfold execute
    rw [exec_bind, exec_lift_run, h]
    rfl

theorem work_of_load (ho : o.sourcemap = some sourcemap)
    (h : exec (Node.load sourcemap : ExceptT Stop (StateM World) Node) w = (.error stop, w')) :
    exec (work o : ExceptT Stop (StateM World) Batch) w = (.error stop, w') := by
  unfold work
  rw [ho]
  exact exec_bind_of_error h

theorem work_of_canonicalize (ho : o.sourcemap = some sourcemap)
    (h : exec (Node.load sourcemap : ExceptT Stop (StateM World) Node) w = (.ok tree, w'))
    (hstop : (exec (Node.canonicalize (.absolute w'.folder) tree :
      ExceptT Stop (StateM World) Node) w').1 = .error stop) :
    exec (work o : ExceptT Stop (StateM World) Batch) w = (.error stop, w') := by
  have hstill := (Node.asks_canonicalize (.absolute w'.folder) tree).still w'
  unfold work
  rw [ho]
  refine (exec_bind_of_ok h).trans ((exec_bind_of_ok (exec_lift _ w')).trans ?_)
  exact exec_bind_of_error (Prod.ext hstop hstill)

end Execute

end CommandLine

open CommandLine Node

/-- A bad sourcemap is reported, with three exceptions. Loading a sourcemap file gives a tree or a
problem of the sourcemap, unless the path of the file cannot be passed on, its bytes are no UTF-8,
or the reader comes to an integer that is too long. Whatever the disk answers, making a tree
canonical gives a tree or a problem of a stale sourcemap, unless the first listed path that cannot
be resolved cannot even be passed on; this does not come up if every path and the target of every
link can be. A run that a problem of either kind stops tells it, changes no file and ends with the
status 1; in the exceptional cases it ends without a status. -/
theorem sourcemap_reported_iff [Disk Id] (w : World) (path folder : Path) (tree : Node) :
    (Reports .sourcemap (exec (load path : ExceptT Stop (StateM World) Node) w).1 ↔
      path.text.Usable ∧ ∀ bytes, w.files.read w.folder path = .ok bytes → ¬Illegible bytes) ∧
    (Reports .staleSourcemap (canonicalize folder tree : ExceptT Stop Id Node).run ↔
      ∀ before p after, tree.allPaths = before ++ p :: after →
        (∀ q ∈ before, ∃ r, real (folder.join q) = .ok r) →
        ∀ why, real (folder.join p) ≠ .error (.unusable why)) ∧
    (w.files.UsableLinks → folder.Usable → (∀ p ∈ tree.allPaths, p.Usable) →
      Reports .staleSourcemap
        (exec (canonicalize folder tree : ExceptT Stop (StateM World) Node) w).1) ∧
    ∀ (color : Bool) (o : Options) (w' : World) (stop : Stop), o.sourcemap = some path →
      (exec (load path : ExceptT Stop (StateM World) Node) w = (.error stop, w') ∨
        ∃ loaded, exec (load path : ExceptT Stop (StateM World) Node) w = (.ok loaded, w') ∧
          (exec (canonicalize (.absolute w.folder) loaded :
            ExceptT Stop (StateM World) Node) w').1 = .error stop) →
      Ends color o w stop := by
  refine ⟨reports_load_iff path w, reports_canonicalize_iff, reports_canonicalize_of_usable, ?_⟩
  rintro color o w' stop ho (h | ⟨loaded, h, hstop⟩)
  · have htold := onlyTells_load path w
    rw [h] at htold
    exact ends_of_work color htold (work_of_load ho h)
  · have htold := onlyTells_load path w
    rw [h] at htold
    rw [← htold.folder] at hstop
    exact ends_of_work color htold (work_of_canonicalize ho h hstop)

/-- A folder with a sourcemap that is a list. -/
def listWorld : World where
  files := ⟨[(["s"], .file (Utf8.encode "[]".toList))]⟩

/-- The options that name the sourcemap. -/
def listOptions : Options := ⟨.ofText "p", some (.ofText "s"), false, false⟩

/-- A sourcemap that is a list is reported. -/
theorem sourcemap_reported_list :
    Ends false listOptions listWorld (.problem (SchemaFault.problem (.notAnObject topPlace))) := by
  have hload : exec (load (.ofText "s") : ExceptT Stop (StateM World) Node) listWorld =
      (.error (.problem (SchemaFault.problem (.notAnObject topPlace))), listWorld) := by
    cbv
  let := listWorld.frozen
  exact (sourcemap_reported_iff listWorld (.ofText "s") (.absolute []) (.mk "" "" [] [])).2.2.2
    false listOptions listWorld _ rfl (.inl hload)

end TypedLinks
