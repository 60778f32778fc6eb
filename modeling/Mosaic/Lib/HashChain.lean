import Mathlib.Data.List.Induction

namespace HashChain

variable {Hash Body View : Type*}

/-- The hash after some bodies. -/
def tip (link : Hash → Body → Hash) (genesis : Hash) (bodies : List Body) : Hash := bodies.foldl link genesis

/-- A link determines the hash before it and what is seen of its body, and no link
gives the hash that a chain starts from. -/
structure Binding (link : Hash → Body → Hash) (genesis : Hash) (view : Body → View) : Prop where
  before : ∀ hash hash' body body', link hash body = link hash' body' → hash = hash'
  body : ∀ hash hash' body body', link hash body = link hash' body' → view body = view body'
  fresh : ∀ hash body, link hash body ≠ genesis

variable {link : Hash → Body → Hash} {genesis : Hash} {view : Body → View}

theorem tip_snoc (bodies : List Body) (body : Body) :
    tip link genesis (bodies ++ [body]) = link (tip link genesis bodies) body := by
  rw [tip, List.foldl_append, tip]
  rfl

/-- The hash after a chain commits to all of it. -/
theorem Binding.commits (binding : Binding link genesis view) {bodies bodies' : List Body}
    (same : tip link genesis bodies = tip link genesis bodies') : bodies.map view = bodies'.map view := by
  induction bodies using List.reverseRecOn generalizing bodies' with
  | nil =>
    cases bodies' using List.reverseRecOn with
    | nil => rfl
    | append_singleton bodies' body' =>
      rw [tip_snoc] at same
      exact absurd same.symm (binding.fresh _ _)
  | append_singleton bodies body ih =>
    cases bodies' using List.reverseRecOn with
    | nil =>
      rw [tip_snoc] at same
      exact absurd same (binding.fresh _ _)
    | append_singleton bodies' body' =>
      rw [tip_snoc, tip_snoc] at same
      rw [List.map_append, List.map_append, ih (binding.before _ _ _ _ same), List.map_singleton, List.map_singleton,
        binding.body _ _ _ _ same]

end HashChain
