import TypedLinks.Proofs.Sourcemap.Schema

/-!
# The ancestors of a malformed value

A value that is no object, or has no name or class, is reported with the place that it stands at:
the names of the instances above it, from the root down, separated by points. The place of a
sourcemap itself is a word, and a place is known to be that one by its text. So an instance at the
top that has this word as its name is taken for nothing: its name is missing from the places further
down, unless there is no other name to show. This is the only way in which a place can be wrong.
-/

namespace TypedLinks

/-! ## Places -/

namespace Text

theorem join_append_cons {separator t u : Text} {ts : List Text} :
    join separator ((t ++ separator ++ u) :: ts) = t ++ separator ++ join separator (u :: ts) := by
  cases ts with
  | nil => simp only [join, List.intercalate_singleton]
  | cons v ts => simp only [join, List.intercalate_cons_cons, List.append_assoc]

end Text

namespace Node

variable {place : Text} {names : List Text}

/-- The place that is shown of a value below instances with the given names: the names without those
in front that are the word for the top, and this word if there is no other name. -/
def shownPlace (names : List Text) : Text :=
  match names.dropWhile (· = topPlace) with
  | [] => topPlace
  | shown => Text.join chainSeparator shown

theorem shownPlace_topPlace_cons (names : List Text) :
    shownPlace (topPlace :: names) = shownPlace names := by
  rw [shownPlace, List.dropWhile_cons_of_pos (by simp), shownPlace]

theorem shownPlace_cons_of_ne {name : Text} (h : name ≠ topPlace) (names : List Text) :
    shownPlace (name :: names) = Text.join chainSeparator (name :: names) := by
  rw [shownPlace, List.dropWhile_cons_of_neg (by simpa using h)]

/-- A place below the top is never taken for the top. -/
theorem separated_ne_topPlace (place name : Text) : place ++ chainSeparator ++ name ≠ topPlace := by
  intro h
  have hpoint : CodePoint.ofChar '.' ∈ place ++ chainSeparator ++ name :=
    List.mem_append_left name (List.mem_append_right place List.mem_cons_self)
  rw [h] at hpoint
  exact absurd hpoint (by decide)

theorem foldl_childPlace_of_ne (h : place ≠ topPlace) (names : List Text) :
    names.foldl childPlace place = Text.join chainSeparator (place :: names) := by
  induction names generalizing place with
  | nil => exact List.intercalate_singleton.symm
  | cons name names ih =>
    have hchild : childPlace place name = place ++ chainSeparator ++ name := if_neg h
    rw [List.foldl_cons, hchild, ih (separated_ne_topPlace place name), Text.join_append_cons,
      Text.join, Text.join, List.intercalate_cons_cons]

/-- The place that a value is read at is the one that is shown. -/
theorem foldl_childPlace_topPlace (names : List Text) :
    names.foldl childPlace topPlace = shownPlace names := by
  induction names with
  | nil => rfl
  | cons name names ih =>
    have hchild : childPlace topPlace name = name := if_pos rfl
    rw [List.foldl_cons, hchild]
    by_cases hname : name = topPlace
    · rw [hname, ih, shownPlace_topPlace_cons]
    · rw [foldl_childPlace_of_ne hname, shownPlace_cons_of_ne hname]

theorem length_shownPlace_le (names : List Text) :
    (shownPlace names).length ≤ topPlace.length + (Text.join chainSeparator names).length := by
  induction names with
  | nil => exact Nat.le_add_right _ _
  | cons name names ih =>
    by_cases hname : name = topPlace
    · have hlength := (Text.suffix_join chainSeparator topPlace names).length_le
      rw [hname, shownPlace_topPlace_cons]
      omega
    · rw [shownPlace_cons_of_ne hname]
      exact Nat.le_add_left _ _

/-- The place that is shown names every instance above a value exactly if there is one only, or the
name of the root is not the word for the top. -/
theorem shownPlace_eq_join_iff (h : names ≠ []) :
    shownPlace names = Text.join chainSeparator names ↔
      names.length = 1 ∨ names.head? ≠ some topPlace := by
  obtain ⟨name, names, rfl⟩ := List.exists_cons_of_ne_nil h
  by_cases hname : name = topPlace
  · subst hname
    cases names with
    | nil => exact iff_of_true rfl (.inl rfl)
    | cons name names =>
      refine iff_of_false (fun heq => ?_) ?_
      · -- Without the first name and its point, too few characters are left.
        have hle := length_shownPlace_le (name :: names)
        have hlength := congrArg List.length heq
        rw [shownPlace_topPlace_cons, Text.join, List.intercalate_cons_cons, List.length_append,
          List.length_append, ← Text.join, show chainSeparator.length = 1 from rfl] at hlength
        omega
      · simp
  · exact iff_of_true (shownPlace_cons_of_ne hname names) (.inr (by simpa using hname))

end Node

/-! ## Messages -/

namespace Json

open Node

/-- What is said of a value at a place that is no object, or that has no string for its name or its
class. -/
inductive Complains (place : Text) : Json → Text → Prop where
  | notAnObject {j : Json} (h : ∀ members, j ≠ .object members) :
      Complains place j ("sourcemap node at " ++ place ++ " is not an object")
  | noName {members : List (Text × Json)}
      (h : ∀ name, member? members "name" ≠ some (.string name)) :
      Complains place (.object members) ("sourcemap node at " ++ place ++ " has no string `name`")
  | noClassName {members : List (Text × Json)} {name : Text}
      (name_eq : member? members "name" = some (.string name))
      (h : ∀ className, member? members "className" ≠ some (.string className)) :
      Complains place (.object members)
        ("sourcemap node `" ++ name ++ "` at " ++ place ++ " has no string `className`")

/-- A value is refused as a sourcemap with a message. -/
def IsRefused (j : Json) (message : Text) : Prop :=
  ∃ fault, ofJson topPlace j = .error fault ∧ fault.problem.kind = .sourcemap ∧
    fault.problem.message = message

variable {j v : Json} {place place' message message' : Text} {position : List Nat}
  {names : List Text}

theorem IsRefused.eq (h : j.IsRefused message) (h' : j.IsRefused message') :
    message = message' := by
  obtain ⟨fault, hfault, -, rfl⟩ := h
  obtain ⟨fault', hfault', -, rfl⟩ := h'
  rw [Except.error.inj (hfault.symm.trans hfault')]

theorem Complains.exists_blames (h : v.Complains place message) :
    ∃ fault, v.Blames place fault ∧ fault.problem.message = message := by
  cases h with
  | notAnObject h => exact ⟨_, .notAnObject h, rfl⟩
  | noName h => exact ⟨_, .noName h, rfl⟩
  | noClassName hname h => exact ⟨_, .noClassName hname h, rfl⟩

/-- What is wrong with a value does not depend on where it stands. -/
theorem Complains.elsewhere (h : v.Complains place message) (place' : Text) :
    ∃ message', v.Complains place' message' := by
  cases h with
  | notAnObject h => exact ⟨_, .notAnObject h⟩
  | noName h => exact ⟨_, .noName h⟩
  | noClassName hname h => exact ⟨_, .noClassName hname h⟩

/-- What is said of a value tells the place. -/
theorem Complains.eq_iff (h : v.Complains place message) (h' : v.Complains place' message') :
    message = message' ↔ place = place' := by
  have hcancel (before after : Text) :
      before ++ place ++ after = before ++ place' ++ after ↔ place = place' := by
    rw [List.append_left_inj, List.append_right_inj]
  cases h with
  | notAnObject hobject =>
    cases h' with
    | notAnObject => exact hcancel _ _
    | _ => exact absurd rfl (hobject _)
  | noName hname =>
    cases h' with
    | notAnObject hobject => exact absurd rfl (hobject _)
    | noName => exact hcancel _ _
    | noClassName hname' => exact absurd hname' (hname _)
  | noClassName hname =>
    cases h' with
    | notAnObject hobject => exact absurd rfl (hobject _)
    | noName hnone => exact absurd hname (hnone _)
    | noClassName hname' =>
      obtain rfl := Json.string.inj (Option.some.inj (hname.symm.trans hname'))
      exact hcancel _ _

/-- There are as many instances above a value as it is deep. -/
theorem Leads.length_names (h : j.Leads position names v) : names.length = position.length := by
  induction h with
  | here => rfl
  | down _ _ _ ih => rw [List.length_cons, List.length_cons, ih]

/-- The first malformed value is what a sourcemap is refused for. -/
theorem Leads.isRefused (h : j.Leads position names v)
    (hfirst : ∀ earlier < position, ∀ names' v', j.Leads earlier names' v' → ∃ f, v'.Describes f)
    (hmessage : v.Complains (shownPlace names) message) : j.IsRefused message := by
  obtain ⟨fault, hblames, hfault⟩ := hmessage.exists_blames
  rw [← foldl_childPlace_topPlace] at hblames
  exact ⟨fault, ofJson_eq_error_iff.2 ⟨position, names, v, h, hblames, hfirst⟩, rfl, hfault⟩

/-- Where the first malformed value of a sourcemap is no object, or has no name or class, the
sourcemap is refused with a message about the place that is shown of the value. That is the message
about the names of all instances above the value, from the root down, exactly if there is one only,
or the name of the root is not the word for the top. -/
theorem malformed_located (hleads : j.Leads position names v) (hdeep : position ≠ [])
    (hfirst : ∀ earlier < position, ∀ names' v', j.Leads earlier names' v' → ∃ f, v'.Describes f) :
    names.length = position.length ∧
      (∀ message, v.Complains (shownPlace names) message → j.IsRefused message) ∧
      ∀ message, v.Complains (Text.join chainSeparator names) message →
        (j.IsRefused message ↔ names.length = 1 ∨ names.head? ≠ some topPlace) := by
  have hlength := hleads.length_names
  have hnames : names ≠ [] := by
    rintro rfl
    exact hdeep (List.length_eq_zero_iff.1 hlength.symm)
  refine ⟨hlength, fun message h => hleads.isRefused hfirst h, fun message h => ?_⟩
  obtain ⟨shown, hshown⟩ := h.elsewhere (shownPlace names)
  have hrefused : j.IsRefused message ↔ shown = message :=
    ⟨(hleads.isRefused hfirst hshown).eq, fun heq => heq ▸ hleads.isRefused hfirst hshown⟩
  rw [hrefused, hshown.eq_iff h, shownPlace_eq_join_iff hnames]

/-- A value without a name. -/
def nameless : Json := .object [("name", .integer 3)]

/-- A folder that holds it. -/
def aboveNameless : Json := .object
  [("name", .string "Packages"), ("className", .string "Folder"), ("children", .array [nameless])]

/-- A root with the word for the top as its name. -/
def farAboveNameless : Json := .object
  [("name", .string "root"), ("className", .string "DataModel"),
    ("children", .array [aboveNameless])]

/-- The folder is shown, and the root is not. -/
theorem malformed_located_nameless :
    (farAboveNameless.Leads [0, 0] ["root", "Packages"] nameless ∧
      ∀ earlier < ([0, 0] : List Nat), ∀ names' v', farAboveNameless.Leads earlier names' v' →
        ∃ f, v'.Describes f) ∧
      farAboveNameless.IsRefused "sourcemap node at Packages has no string `name`" ∧
      ¬farAboveNameless.IsRefused "sourcemap node at root.Packages has no string `name`" := by
  have hroot : farAboveNameless.Describes ⟨"root", "DataModel", [], [aboveNameless]⟩ :=
    @Describes.object _ _ _ [] _ rfl rfl (.missing rfl) (.present rfl)
  have hfolder : aboveNameless.Describes ⟨"Packages", "Folder", [], [nameless]⟩ :=
    @Describes.object _ _ _ [] _ rfl rfl (.missing rfl) (.present rfl)
  have hleads : farAboveNameless.Leads [0, 0] ["root", "Packages"] nameless :=
    .down hroot rfl (.down hfolder rfl (.here _))
  have hfirst : ∀ earlier < ([0, 0] : List Nat), ∀ names' v',
      farAboveNameless.Leads earlier names' v' → ∃ f, v'.Describes f := by
    intro earlier hlt names' v' hleads'
    cases hleads' with
    | here => exact ⟨_, hroot⟩
    | down own hchild others =>
      rcases List.cons_lt_cons_iff.1 hlt with hindex | ⟨rfl, hbelow⟩
      · exact absurd hindex (Nat.not_lt_zero _)
      · obtain rfl := hroot.eq own
        cases hchild
        cases others with
        | here => exact ⟨_, hfolder⟩
        | down =>
          rcases List.cons_lt_cons_iff.1 hbelow with hindex | ⟨rfl, hnil⟩
          · exact absurd hindex (Nat.not_lt_zero _)
          · exact absurd hnil (List.not_lt_nil _)
  have hnameless (place : Text) : Complains place nameless
      ("sourcemap node at " ++ place ++ " has no string `name`") := .noName (by rintro name ⟨⟩)
  obtain ⟨-, hshown, hall⟩ := malformed_located hleads (List.cons_ne_nil _ _) hfirst
  refine ⟨⟨hleads, hfirst⟩, hshown _ (hnameless _), fun h => ?_⟩
  have hname := (hall _ (hnameless _)).1 h
  exact absurd hname (by decide)

end Json

end TypedLinks
