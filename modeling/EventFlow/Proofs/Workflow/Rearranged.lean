/-
  EventFlow.Proofs.Workflow.Rearranged — workflows whose steps are listed in another order.

  A lookup takes the first step that fits, or all that fit in the order of the list. Where ids are
  distinct and every event has one emitter and one consumer, at most one step fits, so the order
  does not matter (`Rearranged.agrees`); only which start comes first does.

  Proved:
  - `Rearranged.agrees`: rearranged workflows answer every lookup alike.
  - `Agrees.inputValue` / `Agrees.visits`: and so give every visit the same value to read and
    set off the same visits.
-/

import EventFlow.Proofs.Workflow.Lookup
import EventFlow.Run.Session
import Mathlib.Data.List.Find

namespace EventFlow

namespace Workflow

structure Unambiguous (w : Workflow) : Prop where
  idsDistinct : (w.steps.map (·.id)).Nodup
  emitter : ∀ p ∈ w.steps, ∀ q ∈ w.steps, ∀ v, v ∈ p.emitted → v ∈ q.emitted → p = q
  consumer : ∀ p ∈ w.steps, ∀ q ∈ w.steps, ∀ v, v ∈ p.accepted → v ∈ q.accepted → p = q

structure Rearranged (w w' : Workflow) : Prop where
  steps : w.steps.Perm w'.steps
  first : w.steps.head? = w'.steps.head?
  settings : w.settings = w'.settings

structure Agrees (w w' : Workflow) : Prop where
  settings : w.settings = w'.settings
  startStep? : w.startStep? = w'.startStep?
  step? : ∀ id, w.step? id = w'.step? id
  producerOf? : ∀ e, w.producerOf? e = w'.producerOf? e
  consumersOf : ∀ e, w.consumersOf e = w'.consumersOf e

variable {w w' : Workflow}

theorem startStep?_eq_head? {s : Step} (h : w.steps.head? = some s) (hkind : s.kind = .start) :
    w.startStep? = some s := by
  obtain ⟨rest, hsteps⟩ := List.head?_eq_some_iff.mp h
  rw [startStep?, hsteps, List.find?_cons_of_pos (by simpa using hkind)]

theorem consumersOf_eq_of_perm (unambiguous : w.Unambiguous) (h : w.steps.Perm w'.steps) (e : Event) :
    w.consumersOf e = w'.consumersOf e := by
  have perm : (w.consumersOf e).Perm (w'.consumersOf e) := h.filter _
  cases hcs : w.consumersOf e with
  | nil => rw [hcs] at perm; exact (List.nil_perm.mp perm).symm
  | cons n ns =>
    have hn : n ∈ w.consumersOf e := hcs ▸ List.mem_cons_self
    obtain ⟨hns, hin⟩ := mem_consumersOf_iff.mp hn
    have one := consumersOf_eq_of_unique unambiguous.idsDistinct hns hin
      fun m hm he => unambiguous.consumer m hm n hns e he hin
    rw [one] at perm
    rw [← hcs, one, List.singleton_perm.mp perm]

theorem Rearranged.agrees (h : w.Rearranged w') (unambiguous : w.Unambiguous) {start : Step}
    (first : w.steps.head? = some start) (hkind : start.kind = .start) : w.Agrees w' where
  settings := h.settings
  startStep? := by rw [startStep?_eq_head? first hkind, startStep?_eq_head? (h.first ▸ first) hkind]
  step? id := List.find?_eq_find?_of_perm h.steps fun a ⟨ha, hia⟩ b ⟨hb, hib⟩ =>
    eq_of_id_eq unambiguous.idsDistinct ha hb ((of_decide_eq_true hia).trans (of_decide_eq_true hib).symm)
  producerOf? e := List.find?_eq_find?_of_perm h.steps fun a ⟨ha, hea⟩ b ⟨hb, heb⟩ =>
    unambiguous.emitter a ha b hb e (Step.emitsEvent_iff.mp hea) (Step.emitsEvent_iff.mp heb)
  consumersOf := consumersOf_eq_of_perm unambiguous h.steps

namespace Agrees

variable (h : w.Agrees w')

include h

theorem inputValue (n : Step) (via : Option Event) (outputs : Outputs) :
    w.inputValue n via outputs = w'.inputValue n via outputs := by
  have producer : w.producerOf? = w'.producerOf? := funext h.producerOf?
  simp only [Workflow.inputValue, firstProducer?, producersFor, producer]

theorem visits (events : List Event) : Session.visits w events = Session.visits w' events := by
  simp only [Session.visits, h.consumersOf]

end Agrees

end Workflow
end EventFlow
