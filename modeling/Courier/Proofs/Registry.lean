import Courier.Channel
import Mathlib.Tactic.Common

/-!
Registries of channels: what is found for a medium is the first channel that takes it, and where
the media are covered something is found for each of them.
-/

namespace Courier.Registry

variable {r : Registry} {medium : Medium} {place : Nat} {name : String}

theorem find_of_forM {media : List Medium}
    (h : (media.forM fun medium => (r.find medium).map fun _ => ()) = .ok ())
    (hmedium : medium ∈ media) : ∃ found, r.find medium = .ok found := by
  induction media with
  | nil => exact absurd hmedium List.not_mem_nil
  | cons first media ih =>
      change ((r.find first).map (fun _ => ()) >>= fun _ => media.forM _) = .ok () at h
      cases hfirst : r.find first with
      | error error =>
          rw [hfirst] at h
          cases h
      | ok found =>
          rw [hfirst] at h
          rcases List.mem_cons.mp hmedium with rfl | hrest
          · exact ⟨found, hfirst⟩
          · exact ih h hrest

/-- Where every medium has a channel, one is found. -/
theorem find_of_coverage (h : r.coverage = .ok ()) (medium : Medium) :
    ∃ place name, r.find medium = .ok (place, name) := by
  obtain ⟨⟨place, name⟩, hfind⟩ := find_of_forM h medium.mem_all
  exact ⟨place, name, hfind⟩

/-- What is found takes the medium, and nothing before it does. -/
theorem first_of_find (h : r.find medium = .ok (place, name)) :
    (∃ media, r.channels[place]? = some (name, media) ∧ media.contains medium = true) ∧
      ∀ earlier < place, ∀ entry, r.channels[earlier]? = some entry →
        entry.2.contains medium = false := by
  unfold find at h
  split at h
  · next found media at_ hfound =>
    obtain ⟨rfl, rfl⟩ := Prod.mk.inj (Except.ok.inj h)
    obtain ⟨htakes, i, hi, hentry, hbefore⟩ := List.find?_eq_some_iff_getElem.mp hfound
    rw [List.getElem_zipIdx, Nat.zero_add] at hentry
    obtain ⟨hget, rfl⟩ := Prod.mk.inj hentry
    refine ⟨⟨media, List.getElem?_eq_some_iff.mpr ⟨_, hget⟩, htakes⟩, ?_⟩
    intro earlier hlt entry hat
    obtain ⟨hlength, rfl⟩ := List.getElem?_eq_some_iff.mp hat
    have hnot := hbefore earlier hlt
    rw [List.getElem_zipIdx] at hnot
    simpa using hnot
  · cases h

theorem lt_of_find (h : r.find medium = .ok (place, name)) : place < r.channels.length := by
  obtain ⟨⟨media, hget, -⟩, -⟩ := first_of_find h
  exact (List.getElem?_eq_some_iff.mp hget).1

end Courier.Registry
