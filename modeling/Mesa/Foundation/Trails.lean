/-
Trails through a graph whose edges are named: a start and the edges and vertices that follow it. A trail is simple if
no vertex and no edge stands in it twice. Simple trails grow at their end, and where the name of an edge determines
where it leads, a trail is determined by its start and its edges.
-/
import Mathlib.Data.List.Nodup
import Mathlib.Tactic

namespace Mesa.Foundation

variable {V E : Type} (step : V → E → V → Prop)

/-- Each edge leads from the vertex before it to the one with it. -/
def Walks : V → List (E × V) → Prop
  | _, [] => True
  | x, (a, y) :: t => step x a y ∧ Walks y t

def lastVertex : V → List (E × V) → V
  | x, [] => x
  | _, (_, y) :: t => lastVertex y t

structure SimpleTrail (x : V) (t : List (E × V)) : Prop where
  walks : Walks step x t
  vertices : (x :: t.map (·.2)).Nodup
  edges : (t.map (·.1)).Nodup

variable {step}

theorem walks_concat {x : V} {t : List (E × V)} {a : E} {y : V} :
    Walks step x (t ++ [(a, y)]) ↔ Walks step x t ∧ step (lastVertex x t) a y := by
  induction t generalizing x with
  | nil => simp [Walks, lastVertex]
  | cons m t ih =>
    obtain ⟨b, z⟩ := m
    rw [List.cons_append, Walks, Walks, ih, lastVertex, and_assoc]

/-- A simple trail goes on with an edge to a vertex, both of them new. -/
theorem simpleTrail_concat {x : V} {t : List (E × V)} {a : E} {y : V} :
    SimpleTrail step x (t ++ [(a, y)]) ↔
      SimpleTrail step x t ∧ step (lastVertex x t) a y ∧ y ∉ x :: t.map (·.2) ∧ a ∉ t.map (·.1) := by
  have hvertices : (x :: (t ++ [(a, y)]).map (·.2)) = (x :: t.map (·.2)) ++ [y] := by simp
  have hedges : (t ++ [(a, y)]).map (·.1) = t.map (·.1) ++ [a] := by simp
  constructor
  · rintro ⟨hwalks, hv, he⟩
    obtain ⟨hwalks, hstep⟩ := walks_concat.1 hwalks
    rw [hvertices, List.nodup_append] at hv
    rw [hedges, List.nodup_append] at he
    refine ⟨⟨hwalks, hv.1, he.1⟩, hstep, fun hy => ?_, fun ha => ?_⟩
    · exact hv.2.2 y hy y (List.mem_singleton_self y) rfl
    · exact he.2.2 a ha a (List.mem_singleton_self a) rfl
  · rintro ⟨⟨hwalks, hv, he⟩, hstep, hy, ha⟩
    refine ⟨walks_concat.2 ⟨hwalks, hstep⟩, ?_, ?_⟩
    · rw [hvertices, List.nodup_append]
      refine ⟨hv, List.nodup_singleton y, fun z hz w hw => ?_⟩
      rw [List.mem_singleton.1 hw]
      exact ne_of_mem_of_not_mem hz hy
    · rw [hedges, List.nodup_append]
      refine ⟨he, List.nodup_singleton a, fun b hb c hc => ?_⟩
      rw [List.mem_singleton.1 hc]
      exact ne_of_mem_of_not_mem hb ha

theorem SimpleTrail.nil (x : V) : SimpleTrail step x [] := ⟨trivial, by simp, by simp⟩

/-- The start and the edges determine the trail. -/
theorem walks_unique (hstep : ∀ x a y z, step x a y → step x a z → y = z) {x : V} {t u : List (E × V)}
    (ht : Walks step x t) (hu : Walks step x u) (hedges : t.map (·.1) = u.map (·.1)) : t = u := by
  induction t generalizing x u with
  | nil => exact (List.map_eq_nil_iff.1 hedges.symm).symm
  | cons m t ih =>
    cases u with
    | nil => cases hedges
    | cons n u =>
      obtain ⟨a, y⟩ := m
      obtain ⟨b, z⟩ := n
      obtain ⟨hab, hrest⟩ := List.cons.inj hedges
      dsimp only at hab
      subst hab
      obtain rfl := hstep x a y z ht.1 hu.1
      rw [ih ht.2 hu.2 hrest]

end Mesa.Foundation
