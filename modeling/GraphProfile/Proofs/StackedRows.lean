import GraphProfile.Proofs.Stacks

set_option autoImplicit false

namespace GraphProfile.Table

section
variable (tables more : List Table)

end

end GraphProfile.Table
