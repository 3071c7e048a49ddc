import Courier.Store
import Mathlib.Data.List.Nodup
import Mathlib.Data.List.Pairwise
import Mathlib.Data.List.Perm.Subperm
import Mathlib.Tactic.Common

/-!
Which events are due first. Of two events the one created earlier comes first, and of two created
at the same moment the one that was put into the outbox before the other. Main rule: what a store
hands out to be published are the first due events in this order, as many as were asked for.
-/

namespace Courier.Store

variable {s : Store} {now : Instant} {limit : Nat} {a b : OutboxEvent} {due : List OutboxEvent}

/-- An event comes before another: it was created earlier, or at the same moment and stands before
it in the outbox. -/
def Precedes (s : Store) (a b : OutboxEvent) : Prop :=
  a.createdAt < b.createdAt ∨ a.createdAt = b.createdAt ∧ [a, b].Sublist s.outbox

instance (s : Store) (a b : OutboxEvent) : Decidable (s.Precedes a b) :=
  inferInstanceAs (Decidable (_ ∨ _))

/-- The first events that are due at a moment, at most so many. -/
structure FirstDue (s : Store) (now : Instant) (limit : Nat) (due : List OutboxEvent) : Prop where
  isDue : ∀ e ∈ due, e ∈ s.outbox ∧ e.isDue now = true
  ordered : due.Pairwise s.Precedes
  length_eq : due.length = min limit (s.outbox.countP (·.isDue now))
  first : ∀ e ∈ s.outbox, e.isDue now = true → e ∉ due → ∀ e' ∈ due, s.Precedes e' e

instance (s : Store) (now : Instant) (limit : Nat) (due : List OutboxEvent) :
    Decidable (s.FirstDue now limit due) :=
  decidable_of_iff
    ((∀ e ∈ due, e ∈ s.outbox ∧ e.isDue now = true) ∧ due.Pairwise s.Precedes ∧
      due.length = min limit (s.outbox.countP (·.isDue now)) ∧
      ∀ e ∈ s.outbox, e.isDue now = true → e ∉ due → ∀ e' ∈ due, s.Precedes e' e)
    ⟨fun ⟨h₁, h₂, h₃, h₄⟩ => ⟨h₁, h₂, h₃, h₄⟩, fun ⟨h₁, h₂, h₃, h₄⟩ => ⟨h₁, h₂, h₃, h₄⟩⟩

/-- Of two different members of a list one stands before the other. -/
theorem pair_sublist_or {α : Type} {l : List α} {x y : α} (hx : x ∈ l) (hy : y ∈ l) (h : x ≠ y) :
    [x, y].Sublist l ∨ [y, x].Sublist l := by
  have hpairs : l.Pairwise fun x y => [x, y].Sublist l :=
    List.pairwise_iff_forall_sublist.mpr id
  have hboth : l.Pairwise fun x y => [x, y].Sublist l ∨ [y, x].Sublist l := hpairs.imp Or.inl
  have : Std.Symm fun x y => [x, y].Sublist l ∨ [y, x].Sublist l := ⟨fun _ _ => Or.symm⟩
  exact hboth.forall hx hy h

/-- In a list without repetition no two members stand before each other. -/
theorem not_pair_sublist {α : Type} [DecidableEq α] {l : List α} {x y : α} (hnodup : l.Nodup)
    (h : [x, y].Sublist l) : ¬ [y, x].Sublist l := by
  have hplaces : l.Pairwise fun x y => l.idxOf x < l.idxOf y := by
    rw [List.pairwise_iff_getElem]
    intro i k hi hk hlt
    rwa [hnodup.idxOf_getElem, hnodup.idxOf_getElem]
  rw [List.pairwise_iff_forall_sublist] at hplaces
  exact fun hback => Nat.lt_asymm (hplaces h) (hplaces hback)

theorem Precedes.asymm (hnodup : s.outbox.Nodup) (h : s.Precedes a b) : ¬ s.Precedes b a := by
  rintro (hlt' | ⟨heq', hback⟩) <;> rcases h with hlt | ⟨heq, hsub⟩
  · exact Int.lt_asymm hlt hlt'
  · exact Int.lt_irrefl _ (heq ▸ hlt' : a.createdAt < a.createdAt)
  · exact Int.lt_irrefl _ (heq' ▸ hlt : a.createdAt < a.createdAt)
  · exact not_pair_sublist hnodup hsub hback

theorem FirstDue.nodup (h : s.FirstDue now limit due) (hnodup : s.outbox.Nodup) : due.Nodup := by
  refine h.ordered.imp fun hlt heq => ?_
  subst heq
  exact hlt.asymm hnodup hlt

theorem FirstDue.ids_nodup (h : s.FirstDue now limit due) (hids : (s.outbox.map (·.id)).Nodup) :
    (due.map (·.id)).Nodup :=
  (h.nodup hids.of_map).map_on fun _ ha _ hb heq =>
    List.inj_on_of_nodup_map hids (h.isDue _ ha).1 (h.isDue _ hb).1 heq

/-- The first due events are determined, with their order. -/
theorem FirstDue.unique {due' : List OutboxEvent} (h : s.FirstDue now limit due)
    (h' : s.FirstDue now limit due') (hnodup : s.outbox.Nodup) : due = due' := by
  have hsubset : due ⊆ due' := by
    intro e he
    by_contra hout
    -- Then all of the others are among the first as well, and there are too many of them.
    have hothers : due' ⊆ due.erase e := by
      intro e' he'
      have hbefore := h'.first e (h.isDue e he).1 (h.isDue e he).2 hout e' he'
      have hin : e' ∈ due := by
        by_contra hout'
        exact hbefore.asymm hnodup
          (h.first e' (h'.isDue e' he').1 (h'.isDue e' he').2 hout' e he)
      have hne : e' ≠ e := by
        rintro rfl
        exact hout he'
      exact (List.mem_erase_of_ne hne).mpr hin
    have hlength := (List.subperm_of_subset (h'.nodup hnodup) hothers).length_le
    rw [List.length_erase_of_mem he, h.length_eq, h'.length_eq] at hlength
    have hpos := List.length_pos_of_mem he
    rw [h.length_eq] at hpos
    omega
  have hperm : due.Perm due' := (List.subperm_of_subset (h.nodup hnodup) hsubset).perm_of_length_le
    (Nat.le_of_eq (h'.length_eq.trans h.length_eq.symm))
  exact hperm.eq_of_pairwise (fun a b _ _ hab hba => absurd hba (hab.asymm hnodup))
    h.ordered h'.ordered

/-- Whether an event is no younger than another. -/
private def noYounger (a b : OutboxEvent) : Bool := a.createdAt ≤ b.createdAt

private theorem noYounger_iff : noYounger a b = true ↔ a.createdAt.key ≤ b.createdAt.key :=
  decide_eq_true_iff

private theorem noYounger_trans (a b c : OutboxEvent) (hab : noYounger a b = true)
    (hbc : noYounger b c = true) : noYounger a c = true :=
  noYounger_iff.mpr (Int.le_trans (noYounger_iff.mp hab) (noYounger_iff.mp hbc))

private theorem noYounger_total (a b : OutboxEvent) : (noYounger a b || noYounger b a) = true := by
  rw [Bool.or_eq_true, noYounger_iff, noYounger_iff]
  exact Int.le_total _ _

/-- Sorted by their age, due events are in order: sorting lets events of one age keep their
places. -/
theorem pairwise_mergeSort (hnodup : s.outbox.Nodup) (now : Instant) :
    ((s.outbox.filter (·.isDue now)).mergeSort noYounger).Pairwise s.Precedes := by
  have hsub : (s.outbox.filter (·.isDue now)).Sublist s.outbox := List.filter_sublist
  have hsorted := List.pairwise_mergeSort noYounger_trans noYounger_total
    (s.outbox.filter (·.isDue now))
  have hperm := List.mergeSort_perm (s.outbox.filter (·.isDue now)) noYounger
  have hdistinct := hperm.nodup_iff.mpr (hnodup.sublist hsub)
  rw [List.pairwise_iff_forall_sublist] at hsorted ⊢
  intro a b hab
  have hle := noYounger_iff.mp (hsorted hab)
  rcases Int.lt_or_eq_of_le hle with hlt | heq
  · exact Or.inl hlt
  · refine Or.inr ⟨Instant.key_inj heq, ?_⟩
    have hne : a ≠ b := by
      have hpair := hdistinct.sublist hab
      exact fun hsame => (List.nodup_cons.mp hpair).1 (List.mem_singleton.mpr hsame)
    have ha := hperm.mem_iff.mp (hab.subset List.mem_cons_self)
    have hb := hperm.mem_iff.mp (hab.subset (List.mem_cons_of_mem a List.mem_cons_self))
    refine ((pair_sublist_or ha hb hne).resolve_right fun hback => ?_).trans hsub
    have hkept := List.pair_sublist_mergeSort noYounger_trans noYounger_total
      (noYounger_iff.mpr (Int.le_of_eq heq.symm)) hback
    exact not_pair_sublist hdistinct hab hkept

/-- What is handed out to be published are the first due events. -/
theorem dueEvents_firstDue (hnone : s.outboxError = none)
    (hids : (s.outbox.map (·.id)).Nodup) (now : Instant) (limit : Nat) :
    ∃ due, s.dueEvents now limit = (.ok due, s) ∧ s.FirstDue now limit due := by
  have hnodup : s.outbox.Nodup := hids.of_map
  have hordered := pairwise_mergeSort hnodup now
  have hperm := List.mergeSort_perm (s.outbox.filter (·.isDue now)) noYounger
  generalize hsorted : (s.outbox.filter (·.isDue now)).mergeSort noYounger = sorted at *
  refine ⟨sorted.take limit, ?_, ?_⟩
  · rw [dueEvents, guarded_of_none .outbox hnone, ← hsorted]
    rfl
  · have hmem {e : OutboxEvent} : e ∈ sorted ↔ e ∈ s.outbox ∧ e.isDue now = true := by
      rw [hperm.mem_iff, List.mem_filter]
    refine ⟨fun e he => hmem.mp (List.mem_of_mem_take he),
      hordered.sublist (List.take_sublist _ _), ?_, fun e he hdue hrest e' he' => ?_⟩
    · rw [List.length_take, hperm.length_eq, List.countP_eq_length_filter]
    · rw [← List.take_append_drop limit sorted, List.pairwise_append] at hordered
      have hin := hmem.mpr ⟨he, hdue⟩
      rw [← List.take_append_drop limit sorted] at hin
      exact hordered.2.2 e' he' e ((List.mem_append.mp hin).resolve_left hrest)

end Courier.Store
