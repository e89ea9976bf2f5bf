/-!
# Items in order

A list is in order if each of its items finds what it needs among the items in front of it.  A
concatenation is in order if its parts are, the later ones with the earlier ones in front.
-/
set_option autoImplicit false

namespace ScopeGraph

/-- Every item of the list is ready once the items in front of it are there. -/
def InOrder {α : Type} (ready : List α → α → Prop) (items : List α) : Prop :=
  ∀ front item back, items = front ++ item :: back → ready front item

namespace InOrder

variable {α β : Type} {ready : List α → α → Prop}

theorem nil : InOrder ready [] := by
  intro front item back parts
  simp at parts

theorem singleton {item : α} (first : ready [] item) : InOrder ready [item] := by
  intro front found back parts
  cases front with
  | nil =>
      cases parts
      exact first
  | cons head rest => simp at parts

theorem append {first second : List α} (front : InOrder ready first)
    (later : InOrder (fun seen => ready (first ++ seen)) second) :
    InOrder ready (first ++ second) := by
  intro seen item back parts
  rcases List.append_eq_append_iff.mp parts with ⟨middle, rfl, rest⟩ | ⟨middle, rfl, rest⟩
  · exact later middle item back rest
  · cases middle with
    | nil =>
        have here := later [] item back rest.symm
        simpa using here
    | cons head middle =>
        cases rest
        exact front seen item middle rfl

theorem cons {item : α} {rest : List α} (first : ready [] item)
    (later : InOrder (fun seen => ready (item :: seen)) rest) : InOrder ready (item :: rest) :=
  append (singleton first) later

theorem of_forall {items : List α} (always : ∀ item ∈ items, ∀ front, ready front item) :
    InOrder ready items := by
  intro front item back parts
  subst parts
  exact always item (by simp) front

theorem flatMap {part : β → List α} {items : List β}
    (parts : InOrder (fun front item =>
      InOrder (fun seen => ready (front.flatMap part ++ seen)) (part item)) items) :
    InOrder ready (items.flatMap part) := by
  induction items generalizing ready with
  | nil => exact nil
  | cons item rest ih =>
      rw [List.flatMap_cons]
      refine append (parts [] item rest rfl) (ih ?_)
      intro front later back split
      have here := parts (item :: front) later back (by rw [split, List.cons_append])
      simpa using here

end InOrder
end ScopeGraph
