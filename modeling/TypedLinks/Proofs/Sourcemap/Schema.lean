import Mathlib.Data.List.Forall2
import TypedLinks.Sourcemap.Reader

/-!
# The schema of a sourcemap

A JSON value is a sourcemap if it is an object with a string `name` and a string `className`, whose
`filePaths` is missing or a list of strings, and whose `children` is missing or a list of
sourcemaps. Exactly such a value is read, the tree has the shape and the fields of the value, and
other members make no difference at any level. Of a value that is no sourcemap the first fault is
reported: that of the first malformed value in the order in which a value comes before its children
and these come from left to right, and the first fault of that value itself.
-/

namespace TypedLinks

open Node

/-! ## Values -/

namespace Json

/-- The member of a name is a list of the given items, or there is none and there are no items. -/
inductive ListsAt (members : List (Text × Json)) (key : Text) : List Json → Prop where
  | missing (h : member? members key = none) : ListsAt members key []
  | present {items : List Json} (h : member? members key = some (.array items)) :
      ListsAt members key items

/-- A value is an object with the fields of an instance. Other members say nothing. -/
inductive Describes : Json → Fields → Prop where
  | object {members : List (Text × Json)} {name className : Text} {paths : List Text}
      {children : List Json}
      (name_eq : member? members "name" = some (.string name))
      (className_eq : member? members "className" = some (.string className))
      (paths_eq : ListsAt members "filePaths" (paths.map .string))
      (children_eq : ListsAt members "children" children) :
      Describes (.object members) ⟨name, className, paths.map Path.ofText, children⟩

/-- A sourcemap: a value that describes an instance, and whose children are sourcemaps. -/
inductive IsSourcemap : Json → Prop where
  | mk {j : Json} {f : Fields} (own : j.Describes f)
      (children : ∀ child ∈ f.children, IsSourcemap child) : IsSourcemap j

/-- A value shows a tree: it describes the root, and its children show those of the root in their
order. -/
inductive Shows : Json → Node → Prop where
  | mk {j : Json} {f : Fields} {ns : List Node} (own : j.Describes f)
      (children : List.Forall₂ Shows f.children ns) :
      Shows j (.mk f.name f.className f.paths ns)

/-- What is wrong with a value itself, which stands at a place: the first thing that is wrong with
what it is, its name, its class, its paths and its list of children. -/
inductive Blames (place : Text) : Json → SchemaFault → Prop where
  | notAnObject {j : Json} (h : ∀ members, j ≠ .object members) :
      Blames place j (.notAnObject place)
  | noName {members : List (Text × Json)}
      (h : ∀ name, member? members "name" ≠ some (.string name)) :
      Blames place (.object members) (.noName place)
  | noClassName {members : List (Text × Json)} {name : Text}
      (name_eq : member? members "name" = some (.string name))
      (h : ∀ className, member? members "className" ≠ some (.string className)) :
      Blames place (.object members) (.noClassName name place)
  | badPaths {members : List (Text × Json)} {name className : Text}
      (name_eq : member? members "name" = some (.string name))
      (className_eq : member? members "className" = some (.string className))
      (h : ∀ paths : List Text, ¬ListsAt members "filePaths" (paths.map .string)) :
      Blames place (.object members) (.badPaths name)
  | badChildren {members : List (Text × Json)} {name className : Text} {paths : List Text}
      (name_eq : member? members "name" = some (.string name))
      (className_eq : member? members "className" = some (.string className))
      (paths_eq : ListsAt members "filePaths" (paths.map .string))
      (h : ∀ children, ¬ListsAt members "children" children) :
      Blames place (.object members) (.badChildren name)

/-- Positions of children lead from a value down to another one. On the way there are values with
the given names, the value at the end left out. -/
inductive Leads : Json → List Nat → List Text → Json → Prop where
  | here (j : Json) : Leads j [] [] j
  | down {j child target : Json} {f : Fields} {i : Nat} {position : List Nat} {names : List Text}
      (own : j.Describes f) (child_eq : f.children[i]? = some child)
      (others : Leads child position names target) :
      Leads j (i :: position) (f.name :: names) target

/-- Two values that differ in members at most that are no fields of an instance, at any level. -/
inductive Alike : Json → Json → Prop where
  | refl (j : Json) : Alike j j
  | object {members members' : List (Text × Json)}
      (fields : ∀ key ∈ (["name", "className", "filePaths", "children"] : List Text),
        member? members' key = member? members key) :
      Alike (.object members) (.object members')
  | nested {members members' : List (Text × Json)} {items items' : List Json}
      (fields : ∀ key ∈ (["name", "className", "filePaths"] : List Text),
        member? members' key = member? members key)
      (children_eq : member? members "children" = some (.array items))
      (children_eq' : member? members' "children" = some (.array items'))
      (children : List.Forall₂ Alike items items') : Alike (.object members) (.object members')

/-! ## Rows of values -/

section Rows

variable {α β : Type} {R S : α → β → Prop} {as : List α} {bs : List β}

theorem forall₂_congr_of_mem (h : ∀ a ∈ as, ∀ b, R a b ↔ S a b) :
    List.Forall₂ R as bs ↔ List.Forall₂ S as bs := by
  constructor
  · intro hrel
    exact ((List.forall₂_and_left as bs).2 ⟨h, hrel⟩).imp fun a b hab => (hab.1 b).1 hab.2
  · intro hrel
    exact ((List.forall₂_and_left as bs).2 ⟨h, hrel⟩).imp fun a b hab => (hab.1 b).2 hab.2

theorem exists_forall₂_iff : (∃ bs, List.Forall₂ R as bs) ↔ ∀ a ∈ as, ∃ b, R a b := by
  induction as with
  | nil => exact ⟨fun _ => List.forall_mem_nil _, fun _ => ⟨[], .nil⟩⟩
  | cons a as ih =>
    rw [List.forall_mem_cons, ← ih]
    constructor
    · rintro ⟨_, _ | ⟨hab, hrel⟩⟩
      exact ⟨⟨_, hab⟩, _, hrel⟩
    · rintro ⟨⟨b, hab⟩, bs, hrel⟩
      exact ⟨b :: bs, .cons hab hrel⟩

end Rows

/-! ## Reading the fields of a value -/

section Fields

variable {members : List (Text × Json)} {key place : Text} {j : Json} {f f' : Fields}
  {fault fault' : SchemaFault}

theorem string?_eq_some_iff {t : Text} :
    (member? members key).bind string? = some t ↔ member? members key = some (.string t) := by
  rw [Option.bind_eq_some_iff]
  constructor
  · rintro ⟨j, hj, ht⟩
    cases j with
    | string t' =>
      cases ht
      exact hj
    | _ => cases ht
  · exact fun h => ⟨.string t, h, rfl⟩

theorem string?_eq_none_iff :
    (member? members key).bind string? = none ↔ ∀ t, member? members key ≠ some (.string t) := by
  rw [Option.eq_none_iff_forall_ne_some]
  exact forall_congr' fun t => not_congr string?_eq_some_iff

theorem items?_eq_some_iff {items : List Json} :
    items? (member? members key) = some items ↔ ListsAt members key items := by
  constructor
  · intro h
    cases hmember : member? members key with
    | none =>
      rw [hmember] at h
      cases h
      exact .missing hmember
    | some j =>
      rw [hmember] at h
      cases j with
      | array items' =>
        cases h
        exact .present hmember
      | _ => cases h
  · rintro (h | h) <;> rw [h] <;> rfl

theorem mapM_string?_eq_some_iff {items : List Json} {texts : List Text} :
    items.mapM string? = some texts ↔ items = texts.map .string := by
  have hstring {j : Json} {t : Text} : j.string? = some t ↔ j = .string t := by
    cases j <;> simp [string?]
  induction items generalizing texts with
  | nil => cases texts <;> simp
  | cons j items ih => cases texts <;> simp [List.mapM_cons, Option.bind_eq_some_iff, hstring, ih]

theorem strings?_eq_some_iff {texts : List Text} :
    (items? (member? members key)).bind (·.mapM string?) = some texts ↔
      ListsAt members key (texts.map .string) := by
  rw [Option.bind_eq_some_iff, ← items?_eq_some_iff]
  constructor
  · rintro ⟨items, hitems, htexts⟩
    rwa [← mapM_string?_eq_some_iff.1 htexts]
  · exact fun h => ⟨_, h, mapM_string?_eq_some_iff.2 rfl⟩

theorem readFields_of_describes (place : Text) (h : (Json.object members).Describes f) :
    readFields place members = .ok f := by
  cases h with
  | object hname hclass hpaths hchildren =>
    rw [readFields, string?_eq_some_iff.2 hname, string?_eq_some_iff.2 hclass,
      strings?_eq_some_iff.2 hpaths, items?_eq_some_iff.2 hchildren]

theorem readFields_of_blames (h : (Json.object members).Blames place fault) :
    readFields place members = .error fault := by
  cases h with
  | notAnObject h => exact absurd rfl (h members)
  | noName h =>
    rw [readFields, string?_eq_none_iff.2 h]
  | noClassName hname h =>
    rw [readFields, string?_eq_some_iff.2 hname, string?_eq_none_iff.2 h]
  | badPaths hname hclass h =>
    have hpaths := Option.eq_none_iff_forall_ne_some.2 fun t ht => h t (strings?_eq_some_iff.1 ht)
    rw [readFields, string?_eq_some_iff.2 hname, string?_eq_some_iff.2 hclass, hpaths]
  | badChildren hname hclass hpaths h =>
    have hchildren := Option.eq_none_iff_forall_ne_some.2 fun t ht => h t (items?_eq_some_iff.1 ht)
    rw [readFields, string?_eq_some_iff.2 hname, string?_eq_some_iff.2 hclass,
      strings?_eq_some_iff.2 hpaths, hchildren]

/-- A value describes an instance or something is wrong with it. -/
theorem describes_or_blames (place : Text) (j : Json) :
    (∃ f, j.Describes f) ∨ ∃ fault, j.Blames place fault := by
  by_cases hobject : ∃ members, j = .object members
  · obtain ⟨members, rfl⟩ := hobject
    by_cases hname : ∃ name, member? members "name" = some (.string name)
    · obtain ⟨name, hname⟩ := hname
      by_cases hclass : ∃ className, member? members "className" = some (.string className)
      · obtain ⟨className, hclass⟩ := hclass
        by_cases hpaths : ∃ paths : List Text, ListsAt members "filePaths" (paths.map .string)
        · obtain ⟨paths, hpaths⟩ := hpaths
          by_cases hchildren : ∃ children, ListsAt members "children" children
          · obtain ⟨children, hchildren⟩ := hchildren
            exact .inl ⟨_, .object hname hclass hpaths hchildren⟩
          · exact .inr ⟨_, .badChildren hname hclass hpaths (not_exists.1 hchildren)⟩
        · exact .inr ⟨_, .badPaths hname hclass (not_exists.1 hpaths)⟩
      · exact .inr ⟨_, .noClassName hname (not_exists.1 hclass)⟩
    · exact .inr ⟨_, .noName (not_exists.1 hname)⟩
  · exact .inr ⟨_, .notAnObject (not_exists.1 hobject)⟩

theorem Describes.exists_members (h : j.Describes f) : ∃ members, j = .object members := by
  cases h
  exact ⟨_, rfl⟩

theorem readFields_eq_ok_iff :
    readFields place members = .ok f ↔ (Json.object members).Describes f := by
  refine ⟨fun h => ?_, readFields_of_describes place⟩
  rcases describes_or_blames place (.object members) with ⟨f', hf⟩ | ⟨fault, hfault⟩
  · obtain rfl := Except.ok.inj ((readFields_of_describes place hf).symm.trans h)
    exact hf
  · cases (readFields_of_blames hfault).symm.trans h

/-- A value is larger than its children. -/
theorem Describes.sizeOf_lt (h : j.Describes f) {child : Json} (hchild : child ∈ f.children) :
    sizeOf child < sizeOf j := by
  obtain ⟨members, rfl⟩ := h.exists_members
  have hmem := List.sizeOf_lt_of_mem hchild
  have hle := sizeOf_readFields_le (readFields_of_describes topPlace h)
  rw [object.sizeOf_spec]
  omega

/-- What holds of a value if it holds of its children holds of every value. -/
theorem child_induction {P : Json → Prop}
    (step : ∀ j, (∀ f, j.Describes f → ∀ child ∈ f.children, P child) → P j) (j : Json) : P j := by
  induction h : sizeOf j using Nat.strongRecOn generalizing j with
  | _ n ih =>
    subst h
    exact step j fun f hf child hchild => ih _ (hf.sizeOf_lt hchild) child rfl

/-! ## Reading a value -/

theorem ofJson_object (place : Text) (members : List (Text × Json)) :
    ofJson place (.object members) = (readFields place members >>= fun f =>
      (.mk f.name f.className f.paths ·) <$> ofJsonEach (childPlace place f.name) f.children) := by
  rw [ofJson]
  split <;> rename_i hfields
  · rw [hfields]
    rfl
  · conv_rhs => rw [hfields]
    rfl

theorem ofJson_of_describes (h : j.Describes f) :
    ofJson place j =
      (.mk f.name f.className f.paths ·) <$> ofJsonEach (childPlace place f.name) f.children := by
  obtain ⟨members, rfl⟩ := h.exists_members
  rw [ofJson_object, readFields_of_describes place h]
  rfl

theorem ofJson_of_blames (h : j.Blames place fault) : ofJson place j = .error fault := by
  cases j with
  | object members =>
    rw [ofJson_object, readFields_of_blames h]
    rfl
  | _ =>
    cases h
    rw [ofJson]
    rintro members ⟨⟩

theorem Describes.eq (h : j.Describes f) (h' : j.Describes f') : f = f' := by
  obtain ⟨members, rfl⟩ := h.exists_members
  exact Except.ok.inj ((readFields_of_describes topPlace h).symm.trans
    (readFields_of_describes topPlace h'))

theorem Blames.not_describes (h : j.Blames place fault) : ¬j.Describes f := by
  intro hf
  obtain ⟨members, rfl⟩ := hf.exists_members
  cases (readFields_of_blames h).symm.trans (readFields_of_describes place hf)

theorem Blames.eq (h : j.Blames place fault) (h' : j.Blames place fault') : fault = fault' :=
  Except.error.inj ((ofJson_of_blames h).symm.trans (ofJson_of_blames h'))

end Fields

section Each

variable {place : Text} {items : List Json} {fault : SchemaFault}

/-- Values are read if each of them is, and give the trees that these give. -/
theorem ofJsonEach_eq_ok_iff {ns : List Node} :
    ofJsonEach place items = .ok ns ↔
      List.Forall₂ (fun j n => ofJson place j = .ok n) items ns := by
  constructor
  · intro h
    induction items generalizing ns with
    | nil =>
      rw [ofJsonEach] at h
      cases h
      exact .nil
    | cons j items ih =>
      rw [ofJsonEach] at h
      cases hj : ofJson place j with
      | error fault =>
        rw [hj] at h
        cases h
      | ok n =>
        cases hitems : ofJsonEach place items with
        | error fault =>
          rw [hj, hitems] at h
          cases h
        | ok ns' =>
          rw [hj, hitems] at h
          cases h
          exact .cons hj (ih hitems)
  · intro h
    induction h with
    | nil => rw [ofJsonEach]
    | cons hj _ ih =>
      rw [ofJsonEach, hj, ih]
      rfl

theorem ofJsonEach_cons_eq_error_iff {j : Json} :
    ofJsonEach place (j :: items) = .error fault ↔ ofJson place j = .error fault ∨
      ∃ n, ofJson place j = .ok n ∧ ofJsonEach place items = .error fault := by
  rw [ofJsonEach]
  cases ofJson place j with
  | error fault' => simp [bind, Except.bind]
  | ok n => cases ofJsonEach place items <;> simp [bind, Except.bind, pure, Except.pure]

/-- Values are not read if one of them is not; the first of these says why. -/
theorem ofJsonEach_eq_error_iff :
    ofJsonEach place items = .error fault ↔ ∃ (i : Nat) (j : Json), items[i]? = some j ∧
      ofJson place j = .error fault ∧
      ∀ k < i, ∀ j', items[k]? = some j' → ∃ n, ofJson place j' = .ok n := by
  induction items with
  | nil => simp [ofJsonEach]
  | cons j items ih =>
    rw [ofJsonEach_cons_eq_error_iff, ih]
    constructor
    · rintro (hj | ⟨n, hn, i, j', hi, hj', hbefore⟩)
      · exact ⟨0, j, rfl, hj, fun k hk => absurd hk (Nat.not_lt_zero k)⟩
      · refine ⟨i + 1, j', hi, hj', fun k hk j'' hj'' => ?_⟩
        cases k with
        | zero =>
          cases hj''
          exact ⟨n, hn⟩
        | succ k => exact hbefore k (Nat.lt_of_succ_lt_succ hk) j'' hj''
    · rintro ⟨i, j', hi, hj', hbefore⟩
      cases i with
      | zero =>
        cases hi
        exact .inl hj'
      | succ i =>
        obtain ⟨n, hn⟩ := hbefore 0 (Nat.succ_pos i) j rfl
        exact .inr ⟨n, hn, i, j', hi, hj', fun k hk => hbefore (k + 1) (Nat.succ_lt_succ hk)⟩

end Each

/-! ## What is read -/

section Reading

variable {place : Text} {j j' : Json} {n : Node} {fault : SchemaFault}

theorem ofJson_eq_ok_iff_of_describes {f : Fields} (h : j.Describes f) :
    ofJson place j = .ok n ↔ ∃ ns, n = .mk f.name f.className f.paths ns ∧
      List.Forall₂ (fun j n => ofJson (childPlace place f.name) j = .ok n) f.children ns := by
  rw [ofJson_of_describes h]
  constructor
  · intro hn
    cases hns : ofJsonEach (childPlace place f.name) f.children with
    | error fault =>
      rw [hns] at hn
      cases hn
    | ok ns =>
      rw [hns] at hn
      cases hn
      exact ⟨ns, rfl, ofJsonEach_eq_ok_iff.1 hns⟩
  · rintro ⟨ns, rfl, hns⟩
    rw [ofJsonEach_eq_ok_iff.2 hns]
    rfl

theorem ofJson_eq_error_iff_of_describes {f : Fields} (h : j.Describes f) :
    ofJson place j = .error fault ↔
      ofJsonEach (childPlace place f.name) f.children = .error fault := by
  rw [ofJson_of_describes h]
  cases ofJsonEach (childPlace place f.name) f.children <;> simp [Functor.map, Except.map]

/-- A value is read as the tree that it shows. -/
theorem ofJson_eq_ok_iff : ofJson place j = .ok n ↔ j.Shows n := by
  induction j using child_induction generalizing place n with
  | step j ih =>
    rcases describes_or_blames place j with ⟨f, hf⟩ | ⟨fault, hfault⟩
    · have hchildren (ns : List Node) :
          List.Forall₂ (fun j n => ofJson (childPlace place f.name) j = .ok n) f.children ns ↔
            List.Forall₂ Shows f.children ns :=
        forall₂_congr_of_mem fun child hchild n => ih f hf child hchild
      rw [ofJson_eq_ok_iff_of_describes hf]
      constructor
      · rintro ⟨ns, rfl, hns⟩
        exact .mk hf ((hchildren ns).1 hns)
      · rintro ⟨own, hns⟩
        obtain rfl := hf.eq own
        exact ⟨_, rfl, (hchildren _).2 hns⟩
    · rw [ofJson_of_blames hfault]
      refine iff_of_false nofun ?_
      rintro ⟨own, -⟩
      exact hfault.not_describes own

/-- The sourcemaps are the values that show a tree. -/
theorem exists_shows_iff : (∃ n, j.Shows n) ↔ j.IsSourcemap := by
  induction j using child_induction with
  | step j ih =>
    constructor
    · rintro ⟨-, own, hns⟩
      exact .mk own fun child hchild =>
        (ih _ own child hchild).1 (exists_forall₂_iff.1 ⟨_, hns⟩ child hchild)
    · rintro ⟨own, children⟩
      obtain ⟨ns, hns⟩ := exists_forall₂_iff.2 fun child hchild =>
        (ih _ own child hchild).2 (children child hchild)
      exact ⟨_, .mk own hns⟩

/-! ## The first fault -/

variable {position position' : List Nat} {names names' : List Text} {v v' : Json}
  {fault fault' : SchemaFault}

/-- Every value in a sourcemap describes an instance. -/
theorem IsSourcemap.describes (h : j.IsSourcemap) (hleads : j.Leads position names v) :
    ∃ f, v.Describes f := by
  induction hleads with
  | here j =>
    cases h with
    | mk own _ => exact ⟨_, own⟩
  | down own hchild _ ih =>
    cases h with
    | mk own' children =>
      obtain rfl := own.eq own'
      exact ih (children _ (List.mem_of_getElem? hchild))

theorem Leads.eq (h : j.Leads position names v) (h' : j.Leads position names' v') :
    names = names' ∧ v = v' := by
  induction h generalizing names' with
  | here j =>
    cases h'
    exact ⟨rfl, rfl⟩
  | down own hchild _ ih =>
    cases h' with
    | down own' hchild' others' =>
      obtain rfl := own.eq own'
      obtain rfl := Option.some.inj (hchild.symm.trans hchild')
      obtain ⟨rfl, rfl⟩ := ih others'
      exact ⟨rfl, rfl⟩

/-- A fault is that of the first value at or below another one that describes no instance. -/
def FirstBlames (place : Text) (j : Json) (fault : SchemaFault) : Prop :=
  ∃ position names v, j.Leads position names v ∧ v.Blames (names.foldl childPlace place) fault ∧
    ∀ earlier < position, ∀ names' v', j.Leads earlier names' v' → ∃ f, v'.Describes f

theorem FirstBlames.eq (h : j.FirstBlames place fault) (h' : j.FirstBlames place fault') :
    fault = fault' := by
  obtain ⟨position, names, v, hleads, hblames, hfirst⟩ := h
  obtain ⟨position', names', v', hleads', hblames', hfirst'⟩ := h'
  have hle : ¬position < position' := fun hlt => by
    obtain ⟨f, hf⟩ := hfirst' position hlt names v hleads
    exact hblames.not_describes hf
  have hge : ¬position' < position := fun hlt => by
    obtain ⟨f, hf⟩ := hfirst position' hlt names' v' hleads'
    exact hblames'.not_describes hf
  obtain rfl : position = position' := List.le_antisymm hge hle
  obtain ⟨rfl, rfl⟩ := hleads.eq hleads'
  exact hblames.eq hblames'

theorem firstBlames_of_ofJson (h : ofJson place j = .error fault) : j.FirstBlames place fault := by
  induction j using child_induction generalizing place with
  | step j ih =>
    rcases describes_or_blames place j with ⟨f, hf⟩ | ⟨fault', hfault⟩
    · rw [ofJson_eq_error_iff_of_describes hf, ofJsonEach_eq_error_iff] at h
      obtain ⟨i, child, hi, hchild, hsiblings⟩ := h
      obtain ⟨position, names, v, hleads, hblames, hfirst⟩ :=
        ih f hf child (List.mem_of_getElem? hi) hchild
      refine ⟨i :: position, f.name :: names, v, .down hf hi hleads, hblames, ?_⟩
      -- What comes earlier is the value itself, or at or below a sibling to the left, or below the
      -- same child.
      intro earlier hlt names' v' hleads'
      cases hleads' with
      | here => exact ⟨f, hf⟩
      | down own hk others =>
        obtain rfl := hf.eq own
        rcases List.cons_lt_cons_iff.1 hlt with hk' | ⟨rfl, hbelow⟩
        · obtain ⟨n, hn⟩ := hsiblings _ hk' _ hk
          exact (exists_shows_iff.1 ⟨n, ofJson_eq_ok_iff.1 hn⟩).describes others
        · obtain rfl := Option.some.inj (hi.symm.trans hk)
          exact hfirst _ hbelow _ _ others
    · rw [ofJson_of_blames hfault] at h
      cases h
      exact ⟨[], [], j, .here j, hfault, fun earlier hlt => absurd hlt (List.not_lt_nil earlier)⟩

/-- The fault that is reported is the first one. -/
theorem ofJson_eq_error_iff : ofJson place j = .error fault ↔ j.FirstBlames place fault := by
  refine ⟨firstBlames_of_ofJson, fun h => ?_⟩
  cases hread : ofJson place j with
  | error fault' => rw [h.eq (firstBlames_of_ofJson hread)]
  | ok n =>
    obtain ⟨position, names, v, hleads, hblames, -⟩ := h
    obtain ⟨f, hf⟩ := (exists_shows_iff.1 ⟨n, ofJson_eq_ok_iff.1 hread⟩).describes hleads
    exact absurd hf hblames.not_describes

/-! ## Other members -/

/-- Objects with the same name, class and paths and with lists of children are read alike up to the
children. -/
theorem readFields_nested (place : Text) {members members' : List (Text × Json)}
    {items items' : List Json}
    (fields : ∀ key ∈ (["name", "className", "filePaths"] : List Text),
      member? members' key = member? members key)
    (hitems : member? members "children" = some (.array items))
    (hitems' : member? members' "children" = some (.array items')) :
    (∃ fault, readFields place members = .error fault ∧ readFields place members' = .error fault) ∨
      ∃ f : Fields, readFields place members = .ok { f with children := items } ∧
        readFields place members' = .ok { f with children := items' } := by
  have hchildren := items?_eq_some_iff.2 (.present hitems)
  have hchildren' := items?_eq_some_iff.2 (.present hitems')
  simp only [readFields, fields "name" (by decide), fields "className" (by decide),
    fields "filePaths" (by decide), hchildren, hchildren']
  cases (member? members "name").bind string? with
  | none => exact .inl ⟨_, rfl, rfl⟩
  | some name =>
    cases (member? members "className").bind string? with
    | none => exact .inl ⟨_, rfl, rfl⟩
    | some className =>
      cases (items? (member? members "filePaths")).bind (·.mapM string?) with
      | none => exact .inl ⟨_, rfl, rfl⟩
      | some paths => exact .inr ⟨⟨name, className, paths.map Path.ofText, items⟩, rfl, rfl⟩

theorem ofJsonEach_congr {place : Text} {items items' : List Json}
    (h : List.Forall₂ (fun j j' => ofJson place j' = ofJson place j) items items') :
    ofJsonEach place items' = ofJsonEach place items := by
  induction h with
  | nil => rfl
  | cons hj _ ih => rw [ofJsonEach, ofJsonEach, hj, ih]

/-- Members that are no fields of an instance make no difference to what is read or reported. -/
theorem Alike.ofJson_eq (h : j.Alike j') : ofJson place j' = ofJson place j := by
  induction j using child_induction generalizing j' place with
  | step j ih =>
    cases h with
    | refl => rfl
    | @object members members' fields =>
      have hread : readFields place members' = readFields place members := by
        rw [readFields, readFields, fields "name" (by decide), fields "className" (by decide),
          fields "filePaths" (by decide), fields "children" (by decide)]
      rw [ofJson_object, ofJson_object, hread]
    | @nested members members' items items' fields hitems hitems' hchildren =>
      rw [ofJson_object, ofJson_object]
      rcases readFields_nested place fields hitems hitems' with
        ⟨fault, hread, hread'⟩ | ⟨f, hread, hread'⟩
      · rw [hread, hread']
      · have hf := readFields_eq_ok_iff.1 hread
        have halike : List.Forall₂ (fun j j' => ofJson (childPlace place f.name) j' =
            ofJson (childPlace place f.name) j) items items' :=
          ((List.forall₂_and_left items items').2 ⟨ih _ hf, hchildren⟩).imp fun j j' h => h.1 h.2
        rw [hread, hread']
        exact congrArg (Node.mk f.name f.className f.paths <$> ·) (ofJsonEach_congr halike)

/-! ## The reader -/

/-- A value is read exactly if it is a sourcemap, as the tree that it shows, whatever its other
members are. Of every other value the first fault is reported. -/
theorem read_iff_sourcemap (place : Text) (j : Json) :
    ((∃ n, ofJson place j = .ok n) ↔ j.IsSourcemap) ∧
    (∀ n, ofJson place j = .ok n ↔ j.Shows n) ∧
    (∀ j', j.Alike j' → ofJson place j' = ofJson place j) ∧
    (¬j.IsSourcemap ↔
      ∃ fault, ofJson place j = .error fault ∧ fault.problem.kind = .sourcemap) ∧
    ∀ fault, ofJson place j = .error fault ↔ j.FirstBlames place fault := by
  have hsourcemap : (∃ n, ofJson place j = .ok n) ↔ j.IsSourcemap := by
    rw [← exists_shows_iff]
    exact exists_congr fun n => ofJson_eq_ok_iff
  refine ⟨hsourcemap, fun n => ofJson_eq_ok_iff, fun j' h => h.ofJson_eq, ?_,
    fun fault => ofJson_eq_error_iff⟩
  rw [← hsourcemap]
  cases ofJson place j with
  | error fault => exact iff_of_true (fun ⟨n, hn⟩ => nomatch hn) ⟨fault, rfl, rfl⟩
  | ok n => exact iff_of_false (fun h => h ⟨n, rfl⟩) fun ⟨fault, h, _⟩ => nomatch h

end Reading

end Json

end TypedLinks
