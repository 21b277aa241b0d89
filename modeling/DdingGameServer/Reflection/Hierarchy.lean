import DdingGameServer.Common.Ancestors
import DdingGameServer.Reflection.TypeInfo
/-!
# Reflection — the type of an object at run time

Each class of a hierarchy has one `TypeInfo`, which points to that of its base or to nothing.
`IsChildOf` goes up these pointers until `IsA` finds the class asked for, by address or by hash
code; `Cast` asks it of the `TypeInfo` of the object. Where hash codes are distinct, `IsA` is
equality, and `IsChildOf` looks through what a climb to the root meets (`isChildOfLoop_of_climb`):
it is the order of the forest.

A `TypeInfo` is known by its address. The loop is given a number of steps, and is without a result
where they do not suffice; the number of classes always does.
-/

namespace DdingGameServer

namespace Reflection

variable {Name : Type} [LinearOrder Name]

/-! ## The functions -/

/-- `GetSuper`, of the `TypeInfo` at an address. -/
def getSuper (typeInfo : ℕ → TypeInfo Name) (this : ℕ) : Option ℕ := (typeInfo this).super

/-- `IsA`. -/
def isA (typeInfo : ℕ → TypeInfo Name) (this inItem : ℕ) : Bool :=
  if this = inItem then true
  else (typeInfo this).hashCode == (typeInfo inItem).hashCode

/-- The loop of `IsChildOf`. -/
def isChildOfLoop (typeInfo : ℕ → TypeInfo Name) (inItem : ℕ) : ℕ → Option ℕ → Option Bool
  | _, none => some false
  | 0, some _ => none
  | fuel + 1, some nowSuper =>
    if isA typeInfo nowSuper inItem = true then some true
    else isChildOfLoop typeInfo inItem fuel (getSuper typeInfo nowSuper)

/-- `IsChildOf`. -/
def isChildOf (typeInfo : ℕ → TypeInfo Name) (fuel this inItem : ℕ) : Option Bool :=
  if isA typeInfo this inItem = true then some true
  else isChildOfLoop typeInfo inItem fuel (typeInfo this).super

/-- `Cast` to the class whose `TypeInfo` is at `toClass`; `getTypeInfo` is the virtual function of
the objects. -/
def cast {Object : Type} (typeInfo : ℕ → TypeInfo Name) (getTypeInfo : Object → ℕ)
    (fuel toClass : ℕ) (source : Option Object) : Option (Option Object) :=
  match source with
  | none => some none
  | some object =>
    (isChildOf typeInfo fuel (getTypeInfo object) toClass).map fun isChild =>
      if isChild = false then none else some object

/-! ## What is expected -/

/-- **A class hierarchy**: the addresses of its `TypeInfo`s and what is there. Each points to that
of its base, which is of the hierarchy, or to nothing; no class derives from itself; two classes
have two hash codes. -/
structure ClassHierarchy (Name : Type) [LinearOrder Name] where
  classes : Finset ℕ
  typeInfo : ℕ → TypeInfo Name
  super_mem : ∀ a ∈ classes, ∀ b, (typeInfo a).super = some b → b ∈ classes
  acyclic : ∀ a ∈ classes, ¬ Relation.TransGen (IsParent fun c => (typeInfo c).super) a a
  hashCode_injOn : ∀ a ∈ classes, ∀ b ∈ classes,
    (typeInfo a).hashCode = (typeInfo b).hashCode → a = b

namespace ClassHierarchy

variable (h : ClassHierarchy Name)

/-- Its forest. -/
def forest : Forest ℕ := ⟨h.classes, fun c => (h.typeInfo c).super, h.super_mem, h.acyclic⟩

/-- `b` is reached from `a` by one or more `GetSuper`. -/
def Ancestor (a b : ℕ) : Prop := Relation.TransGen (fun c d => getSuper h.typeInfo c = some d) a b

end ClassHierarchy

/-- **The test is the ancestor relation**, for loops of `fuel` steps. -/
structure TestsAncestors (h : ClassHierarchy Name) (fuel : ℕ) : Prop where
  terminates : ∀ a ∈ h.classes, ∀ b ∈ h.classes, (isChildOf h.typeInfo fuel a b).isSome
  isChildOf_iff : ∀ a ∈ h.classes, ∀ b ∈ h.classes,
    isChildOf h.typeInfo fuel a b = some true ↔ b = a ∨ h.Ancestor a b
  refl : ∀ a ∈ h.classes, isChildOf h.typeInfo fuel a a = some true
  trans : ∀ a ∈ h.classes, ∀ b ∈ h.classes, ∀ c ∈ h.classes,
    isChildOf h.typeInfo fuel a b = some true → isChildOf h.typeInfo fuel b c = some true →
      isChildOf h.typeInfo fuel a c = some true
  antisymm : ∀ a ∈ h.classes, ∀ b ∈ h.classes, isChildOf h.typeInfo fuel a b = some true →
    isChildOf h.typeInfo fuel b a = some true → a = b
  cast : ∀ (Object : Type) (getTypeInfo : Object → ℕ) (source : Option Object),
    ∀ toClass ∈ h.classes, (∀ object, source = some object → getTypeInfo object ∈ h.classes) →
      ∃ result, Reflection.cast h.typeInfo getTypeInfo fuel toClass source = some result ∧
        (result.isSome ↔ ∃ object, source = some object ∧
          (toClass = getTypeInfo object ∨ h.Ancestor (getTypeInfo object) toClass))

/-! ## The loop -/

variable {typeInfo : ℕ → TypeInfo Name} {fuel inItem a b c : ℕ} {start : Option ℕ} {l : List ℕ}

/-- **The loop looks through what a climb meets.** -/
theorem isChildOfLoop_of_climb (h : climb (fun c => (typeInfo c).super) fuel start = some l) :
    isChildOfLoop typeInfo inItem fuel start = some (l.any fun c => isA typeInfo c inItem) := by
  induction fuel generalizing start l with
  | zero =>
    cases start with
    | none =>
      obtain rfl := Option.some.inj h
      rfl
    | some c => cases h
  | succ fuel ih =>
    cases start with
    | none =>
      obtain rfl := Option.some.inj h
      rfl
    | some c =>
      obtain ⟨rest, hrest, rfl⟩ := Option.map_eq_some_iff.mp h
      rw [isChildOfLoop, List.any_cons]
      cases hisA : isA typeInfo c inItem with
      | true => rfl
      | false =>
        rw [if_neg Bool.false_ne_true, Bool.false_or]
        exact ih hrest

namespace ClassHierarchy

variable (h : ClassHierarchy Name)

/-- In a hierarchy `IsA` is equality. -/
theorem isA_iff (ha : a ∈ h.classes) (hb : b ∈ h.classes) :
    isA h.typeInfo a b = true ↔ a = b := by
  unfold isA
  split
  · simp [*]
  · rw [beq_iff_eq]
    exact ⟨h.hashCode_injOn a ha b hb, fun heq => by rw [heq]⟩

/-- **`IsChildOf` terminates, and is the order of the forest.** -/
theorem isChildOf_eq (ha : a ∈ h.classes) (hb : b ∈ h.classes) (hfuel : h.classes.card ≤ fuel) :
    ∃ result, isChildOf h.typeInfo fuel a b = some result ∧
      (result = true ↔ Reaches h.forest.parent a b) := by
  obtain ⟨l, hl⟩ := h.forest.exists_climb ha
  have hclimb := climb_of_le (Nat.le_succ_of_le hfuel) hl
  have hmem := mem_climb_iff (b := b) hclimb
  simp only [Option.some.injEq, exists_eq_left'] at hmem
  -- the loop has the way behind the class itself
  obtain ⟨rest, hrest, rfl⟩ := Option.map_eq_some_iff.mp hclimb
  have hin (c : ℕ) (hc : c ∈ a :: rest) : c ∈ h.classes := by
    obtain ⟨_, hstart, hreaches⟩ := (mem_climb_iff hclimb).mp hc
    obtain rfl := Option.some.inj hstart
    exact h.forest.mem_of_reaches ha hreaches
  have hany : ((a :: rest).any fun c => isA h.typeInfo c b) = true ↔ b ∈ a :: rest := by
    rw [List.any_eq_true]
    constructor
    · rintro ⟨c, hc, hisA⟩
      rwa [← (h.isA_iff (hin c hc) hb).mp hisA]
    · exact fun hmem => ⟨b, hmem, (h.isA_iff hb hb).mpr rfl⟩
  refine ⟨(a :: rest).any fun c => isA h.typeInfo c b, ?_, hany.trans hmem⟩
  have hloop : isChildOfLoop h.typeInfo b fuel (h.typeInfo a).super =
      some (rest.any fun c => isA h.typeInfo c b) := isChildOfLoop_of_climb hrest
  rw [isChildOf, hloop, List.any_cons]
  cases isA h.typeInfo a b <;> rfl

/-- What it means for it to return true. -/
theorem isChildOf_eq_true_iff (ha : a ∈ h.classes) (hb : b ∈ h.classes)
    (hfuel : h.classes.card ≤ fuel) :
    isChildOf h.typeInfo fuel a b = some true ↔ Reaches h.forest.parent a b := by
  obtain ⟨result, hresult, hiff⟩ := h.isChildOf_eq ha hb hfuel
  rw [hresult, Option.some.injEq, hiff]

theorem reaches_iff : Reaches h.forest.parent a b ↔ b = a ∨ h.Ancestor a b :=
  Relation.reflTransGen_iff_eq_or_transGen

/-! ## The test -/

/-- **The test at run time is the ancestor relation**, in every hierarchy. -/
theorem testsAncestors (h : ClassHierarchy Name) (n : ℕ) :
    TestsAncestors h (h.classes.card + n) := by
  have hfuel : h.classes.card ≤ h.classes.card + n := Nat.le_add_right _ _
  constructor
  · intro a ha b hb
    obtain ⟨result, hresult, -⟩ := h.isChildOf_eq ha hb hfuel
    rw [hresult]
    rfl
  · intro a ha b hb
    rw [h.isChildOf_eq_true_iff ha hb hfuel, h.reaches_iff]
  · intro a ha
    exact (h.isChildOf_eq_true_iff ha ha hfuel).mpr .refl
  · intro a ha b hb c hc hab hbc
    rw [h.isChildOf_eq_true_iff ha hb hfuel] at hab
    rw [h.isChildOf_eq_true_iff hb hc hfuel] at hbc
    exact (h.isChildOf_eq_true_iff ha hc hfuel).mpr (hab.trans hbc)
  · intro a ha b hb hab hba
    rw [h.isChildOf_eq_true_iff ha hb hfuel] at hab
    rw [h.isChildOf_eq_true_iff hb ha hfuel] at hba
    exact h.forest.eq_of_reaches ha hab hba
  · intro Object getTypeInfo source toClass hto hsource
    cases source with
    | none => exact ⟨none, rfl, by simp⟩
    | some object =>
      obtain ⟨isChild, hisChild, hiff⟩ := h.isChildOf_eq (hsource object rfl) hto hfuel
      rw [h.reaches_iff] at hiff
      refine ⟨if isChild = false then none else some object, ?_, ?_⟩
      · rw [Reflection.cast, hisChild]
        rfl
      · simp only [Option.some.injEq, exists_eq_left', ← hiff]
        cases isChild <;> simp

/-- `Base` at 1, and `Derived1` and `Derived2` at 2 and 3. -/
def baseDerived : ClassHierarchy String where
  classes := {1, 2, 3}
  typeInfo c := .new ⟨UInt64.ofNat c, ""⟩ ⟨"", if c = 2 ∨ c = 3 then some 1 else none⟩
  super_mem := by decide
  acyclic a _ := not_transGen_of_lt (fun c d hcd => by
    have hsuper : (if c = 2 ∨ c = 3 then some 1 else none) = some d := hcd
    obtain ⟨hc, hd⟩ := Option.ite_none_right_eq_some.mp hsuper
    obtain rfl := Option.some.inj hd
    omega) a
  hashCode_injOn := by decide

/-- A `Derived2` is a `Base`, and not a `Derived1`. -/
theorem testsAncestors_baseDerived :
    TestsAncestors baseDerived 3 ∧
      Reflection.cast baseDerived.typeInfo id 3 1 (some 3) = some (some 3) ∧
      Reflection.cast baseDerived.typeInfo id 3 2 (some 3) = some none :=
  ⟨testsAncestors baseDerived 0, by decide, by decide⟩

end ClassHierarchy

end Reflection

end DdingGameServer
