import Mathlib.Data.List.Basic

/-!
# File paths

A path is read lexically: its components stand between the slashes, and a component that is empty or a
single dot stays in the directory it is in.
-/

namespace Pathname

/-- What stands between the slashes. -/
def components (path : List UInt8) : List (List UInt8) := path.splitOn 47

/-- The components that name something. -/
def names (path : List UInt8) : List (List UInt8) :=
  (components path).filter fun name => name ≠ [] ∧ name ≠ [46]

/-- No component is `..`. -/
def NoParent (path : List UInt8) : Prop := [46, 46] ∉ components path

/-- `path` is `dir` or below it. -/
def Under (dir path : List UInt8) : Prop := names dir <+: names path

instance (path : List UInt8) : Decidable (NoParent path) :=
  inferInstanceAs (Decidable ([46, 46] ∉ components path))

instance (dir path : List UInt8) : Decidable (Under dir path) :=
  inferInstanceAs (Decidable (names dir <+: names path))

theorem components_append (path rest : List UInt8) :
    components (path ++ 47 :: rest) = components path ++ components rest :=
  List.splitOn_append_cons_self path rest

theorem infix_of_mem_components {path name : List UInt8} (h : name ∈ components path) : name <:+: path := by
  obtain ⟨i, hi⟩ := List.mem_iff_getElem?.mp h
  have hmem : name ∈ (components path).intersperse [47] :=
    List.mem_of_getElem? (List.getElem?_intersperse_two_mul.trans hi)
  calc name <:+: ((components path).intersperse [47]).flatten := List.infix_of_mem_flatten hmem
    _ = path := List.intercalate_splitOn 47

theorem names_append (path rest : List UInt8) :
    names (path ++ 47 :: rest) = names path ++ names rest := by
  rw [names, components_append, List.filter_append, names, names]

theorem under_append (dir rest : List UInt8) : Under dir (dir ++ 47 :: rest) := by
  rw [Under, names_append]
  exact List.prefix_append _ _

theorem noParent_append {path rest : List UInt8} :
    NoParent (path ++ 47 :: rest) ↔ NoParent path ∧ NoParent rest := by
  rw [NoParent, components_append, List.mem_append, not_or, NoParent, NoParent]

theorem noParent_of_not_infix {path : List UInt8} (h : ¬ [46, 46] <:+: path) : NoParent path :=
  fun hmem => h (infix_of_mem_components hmem)

/-! ### Files -/

/-- The two paths start at the same place and go the same way. -/
def SamePlace (p q : List UInt8) : Prop := (p.head? = some 47 ↔ q.head? = some 47) ∧ names p = names q

/-- A function of the file at a path. -/
def OfFile {α : Type} (f : List UInt8 → α) : Prop := ∀ p q, SamePlace p q → f p = f q

instance (p q : List UInt8) : Decidable (SamePlace p q) := inferInstanceAs (Decidable (_ ∧ _))

theorem SamePlace.refl (p : List UInt8) : SamePlace p p := ⟨Iff.rfl, rfl⟩

theorem SamePlace.symm {p q : List UInt8} (h : SamePlace p q) : SamePlace q p := ⟨h.1.symm, h.2.symm⟩

theorem SamePlace.trans {p q r : List UInt8} (h : SamePlace p q) (h' : SamePlace q r) : SamePlace p r :=
  ⟨h.1.trans h'.1, h.2.trans h'.2⟩

theorem ofFile_samePlace {α : Type} (g : Bool → α) (p : List UInt8) : OfFile fun q => g (decide (SamePlace q p)) := by
  intro q r hqr
  exact congrArg g (decide_eq_decide.mpr ⟨fun h => hqr.symm.trans h, fun h => hqr.trans h⟩)

theorem not_samePlace_below {dir path : List UInt8} (hdir : names dir ≠ []) : ¬ SamePlace (dir ++ 47 :: path) path := by
  intro h
  have hlength := congrArg List.length h.2
  rw [names_append, List.length_append] at hlength
  have hpos := List.length_pos_iff.mpr hdir
  omega

end Pathname
