import ModuleRepair.Script.Outline

/-!
# What statements offer

What a module exports and declares is settled by what each of its statements offers, wherever it
stands. A default export that is the name of a declaration becomes a named export when the
declaration is marked as exported and the default export is taken away; `converted_iff` says when
nothing else changes.
-/
namespace ModuleRepair.Script

open ModuleRepair.Text

/-- What a statement exports and declares. -/
structure Offer where
  named : List String
  /-- The declared names, and whether the declaration is exported. -/
  declared : List (String × Bool)
  default : Option (DefaultKind × Option String)
  deriving DecidableEq

namespace Offer

/-- A declaration that is not exported. -/
def unexported (names : List String) : Offer :=
  ⟨[], names.map (·, false), none⟩

/-- A declaration that is exported. -/
def exported (names : List String) : Offer :=
  ⟨names, names.map (·, true), none⟩

/-- A default export of a name. -/
def byDefault (name : String) : Offer :=
  ⟨[], [], some (.identifier, some name)⟩

/-- Whether the statement declares a name. -/
def declares (name : String) (x : Offer) : Bool :=
  x.declared.any (·.1 = name)

end Offer

/-- What the statement offers. -/
def Item.offer (item : Item) : Offer where
  named := item.namedExports
  declared := item.declarations.map fun d => (d.name, d.exported)
  default := item.defaultExport?.map fun d => (d.kind, d.localName)

/-- When a default export of a name can become a named one without changing any other export. -/
structure Convertible (offers : List Offer) (name : String) : Prop where
  /-- There is no other default export. -/
  oneDefault : (offers.filterMap (·.default)).length = 1
  /-- Either all declarations of the name are exported, or the name is not exported, and one
  statement declares it and nothing else. -/
  declared : (∀ d ∈ offers.flatMap (·.declared), d.1 = name → d.2 = true) ∨
    name ∉ offers.flatMap (·.named) ∧ offers.filter (·.declares name) = [.unexported [name]]

theorem offer_declaration (d : Declared) (span : Span) :
    Item.offer ⟨.declaration d, span⟩ = .unexported d.names := by
  simp [Item.offer, Item.namedExports, Item.declarations, Item.defaultExport?, Offer.unexported,
    Function.comp_def]

section

variable (items : List Item)

theorem namedExports_offers :
    (Outline.ofItems items).namedExports = (items.map Item.offer).flatMap (·.named) := by
  rw [List.flatMap_map]
  rfl

theorem declarations_offers :
    (Outline.ofItems items).declarations.map (fun d => (d.name, d.exported)) =
      (items.map Item.offer).flatMap (·.declared) := by
  rw [List.flatMap_map]
  exact List.map_flatMap

theorem defaultExport_offers :
    (Outline.ofItems items).defaultExport = none ↔
      (items.map Item.offer).filterMap (·.default) = [] := by
  simp [Outline.ofItems, Item.offer, List.filterMap_eq_nil_iff]

theorem defaultExport_kind :
    (Outline.ofItems items).defaultExport.map (fun d => (d.kind, d.localName)) =
      (items.map Item.offer).findSome? (·.default) := by
  rw [List.findSome?_map]
  exact List.map_findSome?

end

/-- The name of an exported declaration is a named export. -/
theorem mem_named_of_exported {item : Item} {name : String}
    (h : (name, true) ∈ item.offer.declared) : name ∈ item.offer.named := by
  obtain ⟨d, hd, same⟩ := List.mem_map.mp h
  rcases item with ⟨statement, span⟩
  cases statement with
  | exportDeclaration declared =>
    obtain ⟨n, hn, rfl⟩ := List.mem_map.mp hd
    cases same
    exact hn
  | declaration declared =>
    obtain ⟨n, -, rfl⟩ := List.mem_map.mp hd
    cases same
  | _ => cases hd

theorem Offer.declares_iff {name : String} {x : Offer} :
    x.declares name = true ↔ ∃ exported, (name, exported) ∈ x.declared := by
  simp [Offer.declares]

/-- The statement of a default export that is a name. -/
theorem split_of_defaultExport {items : List Item} {name : String} {span : Span}
    (h : (Outline.ofItems items).defaultExport = some ⟨.identifier, some name, span⟩) :
    ∃ front back, items = front ++ ⟨.exportDefault (.identifier name), span⟩ :: back := by
  obtain ⟨front, ⟨statement, place⟩, back, split, here, -⟩ := List.findSome?_eq_some_iff.mp h
  refine ⟨front, back, ?_⟩
  cases statement with
  | exportDefault value =>
    cases value with
    | declaration name? => cases name? <;> cases here
    | identifier name' =>
      cases here
      exact split
    | expression => cases here
  | exportNames specifiers reexport =>
    obtain ⟨x, -, same⟩ := Option.map_eq_some_iff.mp here
    split at same <;> cases same
  | _ => cases here

/-- The statement of a declaration that is not exported. -/
theorem split_of_declaration? {items : List Item} {name : String} {d : Declaration}
    (h : (Outline.ofItems items).declaration? name = some d) (alone : d.exported = false) :
    ∃ front declared span back, items = front ++ ⟨.declaration declared, span⟩ :: back ∧
      name ∈ declared.names ∧ d.span = declared.span := by
  obtain ⟨⟨statement, span⟩, there, hd⟩ := List.mem_flatMap.mp (List.mem_of_find?_eq_some h)
  obtain ⟨front, back, split⟩ := List.append_of_mem there
  have named : d.name = name := by simpa using List.find?_some h
  cases statement with
  | declaration declared =>
    obtain ⟨n, hn, rfl⟩ := List.mem_map.mp hd
    exact ⟨front, declared, span, back, split, named ▸ hn, rfl⟩
  | exportDeclaration declared =>
    obtain ⟨n, -, rfl⟩ := List.mem_map.mp hd
    cases alone
  | _ => cases hd

/-! ## Marking a declaration -/

/-- What marking a declaration of a name as exported does to the offers. -/
inductive Marks (name : String) : List Offer → List Offer → Prop
  | already {offers : List Offer} : (name, true) ∈ offers.flatMap (·.declared) →
      Marks name offers offers
  | one {front back : List Offer} {names : List String} : name ∈ names →
      Marks name (front ++ .unexported names :: back) (front ++ .exported names :: back)

/-- What the conversion of the default export of a name is meant to do: it becomes a named one. -/
structure Converted (before after : List Offer) (name : String) : Prop where
  noDefault : after.filterMap (·.default) = []
  nodup : (after.flatMap (·.named)).Nodup
  names : ∀ n, n ∈ after.flatMap (·.named) ↔ n ∈ before.flatMap (·.named) ∨ n = name
  exported : ∀ d ∈ after.flatMap (·.declared), d.1 = name → d.2 = true

section

variable {front back : List Offer} {offers : List Offer} {name : String} {names : List String}

/-- One name alone, each of its kind. -/
theorem eq_singleton_of_nodup (nodup : names.Nodup) (there : name ∈ names)
    (same : ∀ n ∈ names, n = name) : names = [name] := by
  have alone := List.eq_replicate_of_mem same
  rw [alone] at nodup there ⊢
  obtain ⟨n, hn⟩ : ∃ n, names.length = n + 1 :=
    Nat.exists_eq_succ_of_ne_zero fun none => by simp [none] at there
  rw [hn] at nodup ⊢
  cases n with
  | zero => rfl
  | succ n => simp [List.replicate_succ] at nodup

theorem named_unexported (front back : List Offer) (names : List String) :
    (front ++ .unexported names :: back).flatMap (·.named) =
      front.flatMap (·.named) ++ back.flatMap (·.named) := by
  simp [Offer.unexported]

theorem named_exported (front back : List Offer) (names : List String) :
    (front ++ .exported names :: back).flatMap (·.named) =
      front.flatMap (·.named) ++ (names ++ back.flatMap (·.named)) := by
  simp [Offer.exported]

/-- Names that are each exported once and are not exported without the declaration of them. -/
theorem fresh_of_nodup (distinct : ((front ++ .exported names :: back).flatMap (·.named)).Nodup)
    {n : String} (hn : n ∈ names) : n ∉ front.flatMap (·.named) ++ back.flatMap (·.named) := by
  intro other
  rw [named_exported, List.nodup_append, List.nodup_append] at distinct
  rcases List.mem_append.mp other with other | other
  · exact distinct.2.2 n other n (List.mem_append_left _ hn) rfl
  · exact distinct.2.1.2.2 n hn n other rfl

theorem alone_of_marked (known : ∀ x ∈ front ++ back, ∀ n, (n, true) ∈ x.declared → n ∈ x.named)
    (there : name ∈ names)
    (distinct : ((front ++ .exported names :: back).flatMap (·.named)).Nodup)
    (same : ∀ n, n ∈ (front ++ .exported names :: back).flatMap (·.named) ↔
      n ∈ front.flatMap (·.named) ++ back.flatMap (·.named) ∨ n = name)
    (exported : ∀ d ∈ (front ++ .exported names :: back).flatMap (·.declared),
      d.1 = name → d.2 = true) :
    names = [name] ∧ ∀ x ∈ front ++ back, x.declares name = false := by
  refine ⟨eq_singleton_of_nodup ?_ there fun n hn => ?_, fun x hx => ?_⟩
  · rw [named_exported] at distinct
    exact ((List.nodup_append.mp distinct).2.1).sublist (List.sublist_append_left ..)
  · have named : n ∈ (front ++ .exported names :: back).flatMap (·.named) := by
      rw [named_exported]
      exact List.mem_append_right _ (List.mem_append_left _ hn)
    exact ((same n).mp named).resolve_left (fresh_of_nodup distinct hn)
  · -- Any other declaration of the name would be exported, and so the name known before.
    refine Bool.eq_false_iff.mpr fun declared => ?_
    obtain ⟨isExported, hd⟩ := Offer.declares_iff.mp declared
    have marked : isExported = true := by
      refine exported (name, isExported) (List.mem_flatMap.mpr ⟨x, ?_, hd⟩) rfl
      rcases List.mem_append.mp hx with hx | hx <;> simp [hx]
    subst marked
    refine fresh_of_nodup distinct there ?_
    rw [← List.flatMap_append]
    exact List.mem_flatMap.mpr ⟨x, hx, known x hx name hd⟩

theorem marked_of_alone
    (nodup : (front.flatMap (·.named) ++ back.flatMap (·.named)).Nodup)
    (fresh : name ∉ front.flatMap (·.named) ++ back.flatMap (·.named))
    (others : ∀ x ∈ front ++ back, x.declares name = false) :
    ((front ++ .exported [name] :: back).flatMap (·.named)).Nodup ∧
      (∀ n, n ∈ (front ++ .exported [name] :: back).flatMap (·.named) ↔
        n ∈ front.flatMap (·.named) ++ back.flatMap (·.named) ∨ n = name) ∧
      ∀ d ∈ (front ++ .exported [name] :: back).flatMap (·.declared), d.1 = name → d.2 = true := by
  rw [named_exported]
  refine ⟨?_, fun n => ?_, fun d hd same => ?_⟩
  · have behind : [name] ++ (front.flatMap (·.named) ++ back.flatMap (·.named)) |>.Nodup :=
      List.nodup_cons.mpr ⟨fresh, nodup⟩
    exact (List.perm_append_comm_assoc ..).nodup behind
  · simp only [List.mem_append, List.mem_singleton]
    rw [or_assoc, or_comm (a := n = name)]
  · obtain ⟨x, hx, hd⟩ := List.mem_flatMap.mp hd
    have place : x ∈ front ++ back ∨ x = .exported [name] := by
      rcases List.mem_append.mp hx with hx | hx
      · exact .inl (List.mem_append_left _ hx)
      · exact (List.mem_cons.mp hx).symm.imp_left (List.mem_append_right _)
    rcases place with hx | rfl
    · have declared : x.declares name = true := Offer.declares_iff.mpr ⟨d.2, by rwa [← same]⟩
      rw [others x hx] at declared
      cases declared
    · obtain ⟨n, -, rfl⟩ := List.mem_map.mp hd
      rfl

/-- Marking a declaration makes the name a named export, just when the declaration is of this name
only and no other statement exports or declares it. -/
theorem marked_declared (known : ∀ x ∈ front ++ .unexported names :: back,
      ∀ n, (n, true) ∈ x.declared → n ∈ x.named) (there : name ∈ names)
    (nodup : ((front ++ .unexported names :: back).flatMap (·.named)).Nodup) :
    (((front ++ .exported names :: back).flatMap (·.named)).Nodup ∧
      (∀ n, n ∈ (front ++ .exported names :: back).flatMap (·.named) ↔
        n ∈ (front ++ .unexported names :: back).flatMap (·.named) ∨ n = name) ∧
      ∀ d ∈ (front ++ .exported names :: back).flatMap (·.declared), d.1 = name → d.2 = true) ↔
    name ∉ (front ++ .unexported names :: back).flatMap (·.named) ∧
      (front ++ .unexported names :: back).filter (·.declares name) = [.unexported [name]] := by
  have declares : (Offer.unexported names).declares name = true :=
    Offer.declares_iff.mpr ⟨false, List.mem_map.mpr ⟨name, there, rfl⟩⟩
  rw [named_unexported] at nodup ⊢
  rw [List.filter_append, List.filter_cons_of_pos declares]
  constructor
  · rintro ⟨distinct, same, exported⟩
    have known (x : Offer) (hx : x ∈ front ++ back) :
        ∀ n, (n, true) ∈ x.declared → n ∈ x.named := by
      refine known x ?_
      rcases List.mem_append.mp hx with hx | hx <;> simp [hx]
    obtain ⟨rfl, others⟩ := alone_of_marked known there distinct same exported
    have none (offers : List Offer) (inside : offers ⊆ front ++ back) :
        offers.filter (·.declares name) = [] :=
      List.filter_eq_nil_iff.mpr fun x hx => by simp [others x (inside hx)]
    rw [none front (List.subset_append_left ..), none back (List.subset_append_right ..)]
    exact ⟨fresh_of_nodup distinct there, rfl⟩
  · rintro ⟨fresh, only⟩
    obtain ⟨noneInFront, rest⟩ := (List.append_eq_singleton_iff.mp only).resolve_right fun other =>
      List.cons_ne_nil _ _ other.2
    obtain ⟨same, noneBehind⟩ := List.cons.inj rest
    obtain rfl : names = [name] := by
      have declared := congrArg (fun x => x.declared.map (·.1)) same
      simpa [Offer.unexported, Function.comp_def] using declared
    refine marked_of_alone nodup fresh fun x hx => Bool.eq_false_iff.mpr ?_
    rcases List.mem_append.mp hx with hx | hx
    · exact List.filter_eq_nil_iff.mp noneInFront x hx
    · exact List.filter_eq_nil_iff.mp noneBehind x hx

/-- A default export of a name exports and declares nothing else. -/
theorem withoutDefault_offers (front back : List Offer) (name : String) :
    (front ++ back).flatMap (·.named) = (front ++ .byDefault name :: back).flatMap (·.named) ∧
      (front ++ back).flatMap (·.declared) =
        (front ++ .byDefault name :: back).flatMap (·.declared) ∧
      ((front ++ back).filterMap (·.default) = [] ↔
        ((front ++ .byDefault name :: back).filterMap (·.default)).length = 1) := by
  refine ⟨by simp [Offer.byDefault], by simp [Offer.byDefault], ?_⟩
  rw [← List.length_eq_zero_iff]
  simp only [List.filterMap_append, List.filterMap_cons, Offer.byDefault, List.length_append,
    List.length_cons]
  omega

/-- Where the name is exported already, taking the default export away is enough, unless there is
another one or another declaration of the name. -/
theorem converted_iff_of_exported {front back : List Offer}
    (known : ∀ x ∈ front ++ .byDefault name :: back, ∀ n, (n, true) ∈ x.declared → n ∈ x.named)
    (exported : (name, true) ∈ (front ++ .byDefault name :: back).flatMap (·.declared))
    (nodup : ((front ++ .byDefault name :: back).flatMap (·.named)).Nodup) :
    Converted (front ++ .byDefault name :: back) (front ++ back) name ↔
      Convertible (front ++ .byDefault name :: back) name := by
  obtain ⟨names, declared, default⟩ := withoutDefault_offers front back name
  obtain ⟨x, hx, hd⟩ := List.mem_flatMap.mp exported
  have named : name ∈ (front ++ .byDefault name :: back).flatMap (·.named) :=
    List.mem_flatMap.mpr ⟨x, hx, known x hx name hd⟩
  constructor
  · intro h
    exact ⟨default.mp h.noDefault, .inl (declared ▸ h.exported)⟩
  · intro h
    refine ⟨default.mpr h.oneDefault, names ▸ nodup, fun n => ?_, declared ▸ ?_⟩
    · rw [names]
      exact (or_iff_left_of_imp fun same => same ▸ named).symm
    · exact h.declared.resolve_right fun other => other.1 named

/-- Where a declaration is marked as exported, it must be the only one of the name and declare
nothing else. -/
theorem converted_iff_of_marked {front back front' back' : List Offer}
    (known : ∀ x ∈ front ++ .unexported names :: back, ∀ n, (n, true) ∈ x.declared → n ∈ x.named)
    (there : name ∈ names)
    (nodup : ((front ++ .unexported names :: back).flatMap (·.named)).Nodup)
    (marked : front ++ .exported names :: back = front' ++ .byDefault name :: back') :
    Converted (front ++ .unexported names :: back) (front' ++ back') name ↔
      Convertible (front ++ .unexported names :: back) name := by
  obtain ⟨named, declared, default⟩ := withoutDefault_offers front' back' name
  rw [← marked] at named declared default
  have same : (front ++ .exported names :: back).filterMap (·.default) =
      (front ++ .unexported names :: back).filterMap (·.default) := by
    simp [Offer.exported, Offer.unexported]
  have alike := marked_declared known there nodup
  rw [same] at default
  have notAll : ¬ ∀ d ∈ (front ++ .unexported names :: back).flatMap (·.declared),
      d.1 = name → d.2 = true := by
    intro all
    have here := all (name, false) (List.mem_flatMap.mpr
      ⟨.unexported _, by simp, List.mem_map.mpr ⟨name, there, rfl⟩⟩) rfl
    cases here
  constructor
  · intro h
    refine ⟨default.mp h.noDefault, .inr (alike.mp ?_)⟩
    rw [← named, ← declared]
    exact ⟨h.nodup, h.names, h.exported⟩
  · intro h
    have rest := alike.mpr (h.declared.resolve_left notAll)
    rw [← named, ← declared] at rest
    exact ⟨default.mpr h.oneDefault, rest.1, rest.2.1, rest.2.2⟩

/-- The conversion of a default export does what it is meant to just when the name is declared alone
and exported nowhere else. -/
theorem converted_iff {front back : List Offer}
    (known : ∀ x ∈ offers, ∀ n, (n, true) ∈ x.declared → n ∈ x.named)
    (nodup : (offers.flatMap (·.named)).Nodup)
    (marks : Marks name offers (front ++ .byDefault name :: back)) :
    Converted offers (front ++ back) name ↔ Convertible offers name := by
  generalize marked : front ++ .byDefault name :: back = after at marks
  cases marks with
  | already exported =>
    subst marked
    exact converted_iff_of_exported known exported nodup
  | one there => exact converted_iff_of_marked known there nodup marked.symm

end

end ModuleRepair.Script
