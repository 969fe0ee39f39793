set_option autoImplicit false

namespace GraphProfile

inductive Kind where
  | vertex
  | edge
deriving DecidableEq

def Kind.name : Kind → String
  | .vertex => "vertex"
  | .edge => "edge"

structure PerKind (α : Type) where
  vertex : α
  edge : α
deriving DecidableEq

namespace PerKind

variable {α : Type}

def get (p : PerKind α) : Kind → α
  | .vertex => p.vertex
  | .edge => p.edge

def modify (p : PerKind α) (k : Kind) (f : α → α) : PerKind α :=
  match k with
  | .vertex => { p with vertex := f p.vertex }
  | .edge => { p with edge := f p.edge }

@[simp] theorem get_modify (p : PerKind α) (k j : Kind) (f : α → α) :
    (p.modify k f).get j = if k = j then f (p.get j) else p.get j := by
  cases k <;> cases j <;> rfl

@[ext] theorem ext_get {p q : PerKind α} (h : ∀ k, p.get k = q.get k) : p = q := by
  cases p; cases q
  have hv := h .vertex
  have he := h .edge
  simp only [get] at hv he
  simp [hv, he]

end PerKind
end GraphProfile
