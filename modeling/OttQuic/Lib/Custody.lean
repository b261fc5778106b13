import Mathlib.Data.List.Nodup
import Mathlib.Logic.Function.Basic

/-!
# Files named by the rows of a table

A table whose rows each name a path, a store of files, and processes that write a file, insert the row
that names it, and remove files whose rows they have deleted, one operation at a time. `Custody` is what a
state looks like from outside: the rows, the files, what each row was made for, and what each process
holds.

A process holds a path as its *owner* when it has written the file and will insert the row, as a *keeper*
when it goes with a row that exists, and as a *remover* when it will unlink the file. `Sound` says what a
hold entitles to; each rule below keeps it under its side condition. The only one that does not concern
the process itself is that a file is written at a path that nobody holds and no row names (`Free`).
-/

namespace Custody

variable {κ π δ ι : Type*}

/-- What a process holds. -/
inductive Hold (κ π δ : Type*) where
  /-- The process has written `data` and will insert the row. -/
  | owner (path : π) (data : δ)
  /-- No row but `row` names the path. -/
  | keeper (path : π) (row : κ)
  /-- No row names the path. -/
  | remover (path : π)

def Hold.path : Hold κ π δ → π
  | .owner path _ | .keeper path _ | .remover path => path

/-- The row that may name the path. -/
def Hold.row : Hold κ π δ → Option κ
  | .keeper _ row => some row
  | .owner _ _ | .remover _ => none

/-- The rows with their paths, the files, the data each row was made for, and the holds. -/
structure State (κ π δ ι : Type*) where
  rows : List (κ × π)
  files : π → Option δ
  stored : κ → Option δ
  holds : ι → Option (Hold κ π δ)

/-- Every row names a file that holds what was stored for it, and no two rows name one path. -/
structure Consistent (s : State κ π δ ι) : Prop where
  rows : ∀ r ∈ s.rows, ∃ data, s.stored r.1 = some data ∧ s.files r.2 = some data
  paths : (s.rows.map Prod.snd).Nodup

structure Sound (s : State κ π δ ι) : Prop extends Consistent s where
  held : ∀ i h, s.holds i = some h → ∀ r ∈ s.rows, r.2 = h.path → h.row = some r.1
  owned : ∀ i path data, s.holds i = some (.owner path data) →
    s.files path = some data ∧ ∀ j h, s.holds j = some h → h.path = path → j = i

/-- Nobody but process `i` holds the path, and no row names it. -/
def Free (s : State κ π δ ι) (i : ι) (path : π) : Prop :=
  (∀ r ∈ s.rows, r.2 ≠ path) ∧ ∀ j h, s.holds j = some h → h.path = path → j = i

variable {s : State κ π δ ι} {i : ι} {path : π} {data : δ} {row : κ}

theorem Sound.free (h : Sound s) (hi : s.holds i = some (.owner path data)) : Free s i path := by
  refine ⟨fun r hr heq => ?_, (h.owned i path data hi).2⟩
  cases h.held i _ hi r hr heq

theorem Sound.elsewhere (h : Sound s) (files : π → Option δ)
    (hrows : ∀ r ∈ s.rows, files r.2 = s.files r.2)
    (howners : ∀ i path data, s.holds i = some (.owner path data) → files path = s.files path) :
    Sound { s with files := files } := by
  refine ⟨⟨fun r hr => ?_, h.paths⟩, h.held, fun i path data hi => ?_⟩
  · obtain ⟨data, hstored, hfile⟩ := h.rows r hr
    exact ⟨data, hstored, (hrows r hr).trans hfile⟩
  · obtain ⟨hfile, honly⟩ := h.owned i path data hi
    exact ⟨(howners i path data hi).trans hfile, honly⟩

theorem Sound.delete (h : Sound s) (rows : List (κ × π)) (hsub : rows.Sublist s.rows) :
    Sound { s with rows := rows } := by
  refine ⟨⟨fun r hr => h.rows r (hsub.subset hr), h.paths.sublist (hsub.map _)⟩, ?_, h.owned⟩
  exact fun i hold hi r hr => h.held i hold hi r (hsub.subset hr)

variable [DecidableEq ι]

theorem Sound.hold (h : Sound s) (i : ι) (hold : Option (Hold κ π δ))
    (hrows : ∀ h', hold = some h' → ∀ r ∈ s.rows, r.2 = h'.path → h'.row = some r.1)
    (howner : ∀ path data, hold ≠ some (.owner path data))
    (hothers : ∀ h', hold = some h' → ∀ j path data, s.holds j = some (.owner path data) →
      h'.path = path → j = i) :
    Sound { s with holds := Function.update s.holds i hold } := by
  refine ⟨⟨h.rows, h.paths⟩, ?_, fun j path data hj => ?_⟩
  · exact (Function.forall_update_iff s.holds fun _ (o : Option (Hold κ π δ)) =>
      ∀ h', o = some h' → ∀ r ∈ s.rows, r.2 = h'.path → h'.row = some r.1).mpr
        ⟨hrows, fun j _ => h.held j⟩
  · dsimp only at hj ⊢
    have hne : j ≠ i := by
      rintro rfl
      rw [Function.update_self] at hj
      exact howner path data hj
    rw [Function.update_of_ne hne] at hj
    obtain ⟨hfile, honly⟩ := h.owned j path data hj
    refine ⟨hfile, (Function.forall_update_iff s.holds fun k (o : Option (Hold κ π δ)) =>
      ∀ h', o = some h' → h'.path = path → k = j).mpr ⟨fun h' hh hpath => ?_, fun k _ => honly k⟩⟩
    exact absurd (hothers h' hh j path data hj hpath) hne

theorem Sound.release (h : Sound s) (i : ι) : Sound { s with holds := Function.update s.holds i none } :=
  h.hold i none (fun _ h' => by cases h') (fun _ _ => by simp) fun _ h' => by cases h'

theorem Sound.keep (h : Sound s) (i : ι) (hrow : (row, path) ∈ s.rows) :
    Sound { s with holds := Function.update s.holds i (some (.keeper path row)) } := by
  refine h.hold i _ ?_ (fun _ _ => by simp) ?_
  · rintro h' hh r hr hpath
    cases hh
    obtain ⟨k, p⟩ := r
    obtain rfl : p = path := hpath
    exact congrArg some (congrArg Prod.fst (List.inj_on_of_nodup_map h.paths hrow hr rfl))
  · rintro h' hh j p data hj rfl
    cases hh
    exact absurd rfl ((h.free hj).1 _ hrow)

theorem Sound.settle (h : Sound s) (hi : s.holds i = some (.keeper path row))
    (hgone : ∀ r ∈ s.rows, r.1 ≠ row) :
    Sound { s with holds := Function.update s.holds i (some (.remover path)) } := by
  refine h.hold i _ ?_ (fun _ _ => by simp) ?_
  · rintro h' hh r hr hpath
    cases hh
    have hrow := h.held i _ hi r hr hpath
    exact absurd (Option.some.inj hrow).symm (hgone r hr)
  · rintro h' hh j p data hj hpath
    cases hh
    exact ((h.owned j p data hj).2 i _ hi hpath).symm

theorem Sound.abandon (h : Sound s) (hi : s.holds i = some (.owner path data)) :
    Sound { s with holds := Function.update s.holds i (some (.remover path)) } := by
  refine h.hold i _ ?_ (fun _ _ => by simp) ?_
  · rintro h' hh r hr hpath
    cases hh
    exact absurd hpath ((h.free hi).1 r hr)
  · rintro h' hh j p data hj hpath
    cases hh
    exact ((h.owned j p data hj).2 i _ hi hpath).symm

section

variable [DecidableEq κ]

theorem Sound.insert (h : Sound s) (hi : s.holds i = some (.owner path data))
    (hfresh : ∀ r ∈ s.rows, r.1 ≠ row) :
    Sound
      { rows := s.rows ++ [(row, path)]
        files := s.files
        stored := Function.update s.stored row (some data)
        holds := Function.update s.holds i (some (.keeper path row)) } := by
  have hfree := h.free hi
  refine ⟨⟨fun r hr => ?_, ?_⟩, ?_, fun j p d hj => ?_⟩
  · rcases List.mem_append.mp hr with hr | hr
    · obtain ⟨d, hstored, hfile⟩ := h.rows r hr
      exact ⟨d, (Function.update_of_ne (hfresh r hr) _ _).trans hstored, hfile⟩
    · obtain rfl := List.mem_singleton.mp hr
      exact ⟨data, Function.update_self .., (h.owned i path data hi).1⟩
  · rw [List.map_append, List.nodup_append]
    refine ⟨h.paths, List.nodup_singleton _, fun p hp q hq => ?_⟩
    obtain ⟨r, hr, rfl⟩ := List.mem_map.mp hp
    obtain rfl := List.mem_singleton.mp hq
    exact hfree.1 r hr
  · refine (Function.forall_update_iff s.holds fun _ (o : Option (Hold κ π δ)) =>
      ∀ h', o = some h' → ∀ r ∈ s.rows ++ [(row, path)], r.2 = h'.path → h'.row = some r.1).mpr
        ⟨fun h' hh r hr hpath => ?_, fun j hne h' hj r hr hpath => ?_⟩
    · cases hh
      rcases List.mem_append.mp hr with hr | hr
      · exact absurd hpath (hfree.1 r hr)
      · rw [List.mem_singleton.mp hr]
        rfl
    · rcases List.mem_append.mp hr with hr | hr
      · exact h.held j h' hj r hr hpath
      · rw [List.mem_singleton.mp hr] at hpath
        exact absurd (hfree.2 j h' hj hpath.symm) hne
  · dsimp only at hj ⊢
    have hne : j ≠ i := by
      rintro rfl
      rw [Function.update_self] at hj
      cases hj
    rw [Function.update_of_ne hne] at hj
    obtain ⟨hfile, honly⟩ := h.owned j p d hj
    refine ⟨hfile, (Function.forall_update_iff s.holds fun k (o : Option (Hold κ π δ)) =>
      ∀ h', o = some h' → h'.path = p → k = j).mpr ⟨fun h' hh hpath => ?_, fun k _ => honly k⟩⟩
    cases hh
    exact honly i _ hi hpath

end

variable [DecidableEq π]

theorem Sound.spoil (h : Sound s) (content : Option δ) (hrows : ∀ r ∈ s.rows, r.2 ≠ path)
    (howners : ∀ j data, s.holds j = some (.owner path data) → j = i) :
    Sound { s with
      files := Function.update s.files path content
      holds := Function.update s.holds i none } := by
  refine (h.release i).elsewhere (Function.update s.files path content) (fun r hr => ?_) ?_
  · exact Function.update_of_ne (hrows r hr) _ _
  · refine (Function.forall_update_iff s.holds fun j (o : Option (Hold κ π δ)) => ∀ p data,
      o = some (.owner p data) → Function.update s.files path content p = s.files p).mpr
        ⟨fun p data hh => (nomatch hh), fun j hne p data hj => ?_⟩
    refine Function.update_of_ne ?_ _ _
    rintro rfl
    exact hne (howners j data hj)

theorem Sound.unlink (h : Sound s) (hi : s.holds i = some (.remover path)) :
    Sound { s with
      files := Function.update s.files path none
      holds := Function.update s.holds i none } := by
  refine h.spoil none (fun r hr hpath => ?_) fun j data hj => ?_
  · cases h.held i _ hi r hr hpath
  · exact ((h.owned j path data hj).2 i _ hi rfl).symm

theorem Sound.write (h : Sound s) (hfree : Free s i path) (data : δ) :
    Sound { s with
      files := Function.update s.files path (some data)
      holds := Function.update s.holds i (some (.owner path data)) } := by
  have hspoiled := h.spoil (some data) hfree.1 fun j data hj => hfree.2 j _ hj rfl
  refine ⟨⟨hspoiled.rows, hspoiled.paths⟩, ?_, fun j p d hj => ?_⟩
  · refine (Function.forall_update_iff s.holds fun _ (o : Option (Hold κ π δ)) =>
      ∀ h', o = some h' → ∀ r ∈ s.rows, r.2 = h'.path → h'.row = some r.1).mpr
        ⟨fun h' hh r hr hpath => ?_, fun j _ => h.held j⟩
    cases hh
    exact absurd hpath (hfree.1 r hr)
  · dsimp only at hj ⊢
    rcases eq_or_ne j i with rfl | hne
    · rw [Function.update_self] at hj
      cases hj
      refine ⟨Function.update_self .., ?_⟩
      exact (Function.forall_update_iff s.holds fun k (o : Option (Hold κ π δ)) =>
        ∀ h', o = some h' → h'.path = path → k = j).mpr ⟨fun _ _ _ => rfl, fun k _ => hfree.2 k⟩
    · rw [Function.update_of_ne hne] at hj
      obtain ⟨hfile, honly⟩ := h.owned j p d hj
      have hp : p ≠ path := fun hpath => hne (hfree.2 j _ hj hpath)
      refine ⟨(Function.update_of_ne hp _ _).trans hfile, ?_⟩
      refine (Function.forall_update_iff s.holds fun k (o : Option (Hold κ π δ)) =>
        ∀ h', o = some h' → h'.path = p → k = j).mpr ⟨fun h' hh hpath => ?_, fun k _ => honly k⟩
      cases hh
      exact absurd hpath.symm hp

end Custody
