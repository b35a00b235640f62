import Mathlib.Data.List.Induction
import Mathlib.Data.List.Perm.Basic

/-!
# Lists by class

The members of a list taken class by class are the members of the list, each as often as it occurs there. The classes
come in the order in which they first occur, or are numbers in their own order.
-/

namespace QueryCode
set_option autoImplicit false

variable {α κ : Type} [BEq κ] [LawfulBEq κ]

/-- **Nothing is lost and nothing repeated when a list is taken apart by class.** -/
theorem perm_flatMap_filter (kind : α → κ) {classes : List κ} (distinct : classes.Nodup) {items : List α}
    (covered : ∀ item ∈ items, kind item ∈ classes) :
    (classes.flatMap fun k => items.filter fun item => kind item == k).Perm items := by
  induction classes generalizing items with
  | nil =>
    cases items with
    | nil => exact .refl []
    | cons item items => cases covered item List.mem_cons_self
  | cons k classes ih =>
    rw [List.nodup_cons] at distinct
    -- the other classes see nothing of the first one
    have others : (classes.flatMap fun j => items.filter fun item => kind item == j) =
        classes.flatMap fun j => (items.filter fun item => !(kind item == k)).filter fun item => kind item == j := by
      apply List.flatMap_congr
      intro j mem
      rw [List.filter_filter]
      apply List.filter_congr
      intro item _
      by_cases same : kind item = j
      · have differ : kind item ≠ k := fun first => distinct.1 (first ▸ same ▸ mem)
        simp [same ▸ differ, same]
      · simp [same]
    have rest : ∀ item ∈ items.filter fun item => !(kind item == k), kind item ∈ classes := by
      intro item mem
      rw [List.mem_filter] at mem
      rcases List.mem_cons.1 (covered item mem.1) with same | later
      · simp [same] at mem
      · exact later
    rw [List.flatMap_cons, others]
    exact (List.Perm.append_left _ (ih distinct.2 rest)).trans (List.filter_append_perm _ items)

/-- One more item adds its class at the end, unless it has been seen. -/
theorem eraseDups_append_singleton (seen : List κ) (k : κ) :
    (seen ++ [k]).eraseDups = if k ∈ seen then seen.eraseDups else seen.eraseDups ++ [k] := by
  rw [List.eraseDups_append]
  by_cases mem : k ∈ seen <;> simp [List.removeAll, List.eraseDups_cons, mem]

theorem nodup_eraseDups (seen : List κ) : seen.eraseDups.Nodup := by
  induction seen using List.reverseRecOn with
  | nil => simp
  | append_singleton seen k ih =>
    rw [eraseDups_append_singleton]
    split
    · exact ih
    · rename_i fresh
      rw [List.nodup_append]
      refine ⟨ih, by simp, ?_⟩
      rintro j mem _ last rfl
      rw [List.mem_singleton] at last
      rw [List.mem_eraseDups, last] at mem
      exact fresh mem

end QueryCode
