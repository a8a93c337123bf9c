import BlockEditor.Program.Request
import BlockEditor.Proofs.Decoding
import BlockEditor.Proofs.JsonText
import BlockEditor.Proofs.Nodes

/-!
# What a submitted program is read as

The body of a request is read as the program that was submitted, or not at all.  It is refused exactly if
it nests too deep: a node opens two arrays or objects inside of the array that it is in, the second one for
its variables and its children, and one more for a variable.  So the deepest level of nodes that is read is
the one at which the lists of variables are empty.
-/

namespace BlockEditor

/-- The number of arrays and objects that a node nests without its children: itself, the array of its
variables, and a variable if there is one. -/
def Node.ownDepth (n : Node) : Nat :=
  if n.vars = [] then 2 else 3

theorem Node.two_le_ownDepth (n : Node) :
  2 ≤ n.ownDepth
  := by
  rw [ownDepth]
  split <;> decide

theorem Node.depth_ofList_vars (n : Node) :
  (Json.ofList Variable.toJson n.vars).depth + 1 = n.ownDepth
  := by
  have hdepth : ∀ vars : List Variable, vars ≠ [] →
      Json.depthOfElements (vars.map Variable.toJson) = 1 := by
    intro vars hne
    induction vars with
    | nil => contradiction
    | cons v vars ih =>
      rw [List.map_cons, Json.depthOfElements, v.depth_toJson]
      by_cases hvars : vars = []
      · rw [hvars]
        rfl
      · rw [ih hvars, Nat.max_self]
  rw [Json.ofList, Json.depth, Node.ownDepth]
  split
  · rename_i hvars
    rw [hvars]
    rfl
  · rename_i hvars
    rw [hdepth _ hvars]

/-- A visit of a walk that began beneath the nodes `above` keeps to the depth `limit`: each node in
between nests two arrays or objects. -/
def Node.Keeps (limit : Nat) (above : List Node) (visit : Node × List Node) : Prop :=
  2 * visit.2.length + visit.1.ownDepth ≤ limit + 2 * above.length

/-- A node keeps to a depth if the walk of it does, provided that this holds of its children. -/
theorem Node.depth_toJson_le_iff_of {node : Node} {above : List Node} {limit : Nat}
    (hchildren : Json.depthOfElements (Program.elements node.children) ≤ limit - 2
      ↔ ∀ visit ∈ Program.visits (node :: above) node.children,
        Node.Keeps (limit - 2) (node :: above) visit) :
  node.toJson.depth ≤ limit ↔ ∀ visit ∈ node.visits above, Node.Keeps limit above visit
  := by
  have hown := node.depth_ofList_vars
  have hnode : Node.Keeps limit above (node, above) ↔ node.ownDepth ≤ limit := by
    rw [Node.Keeps, Nat.add_comm, Nat.add_le_add_iff_right]
  have hdepth : node.toJson.depth ≤ limit
      ↔ node.ownDepth ≤ limit ∧ Json.depthOfElements (Program.elements node.children) + 2 ≤ limit := by
    rw [Node.depth_toJson, Program.toJson, Json.depth]
    omega
  rw [hdepth, Node.visits_eq, List.forall_mem_cons, hnode]
  apply and_congr_right
  intro hlimit
  have htwo := node.two_le_ownDepth
  have hkeeps : ∀ visit, Node.Keeps limit above visit
      ↔ Node.Keeps (limit - 2) (node :: above) visit := by
    intro visit
    rw [Node.Keeps, Node.Keeps, List.length_cons]
    omega
  simp only [hkeeps]
  rw [← hchildren]
  omega

mutual

theorem Node.depth_toJson_le_iff : ∀ (node : Node) (above : List Node) (limit : Nat),
    node.toJson.depth ≤ limit ↔ ∀ visit ∈ node.visits above, Node.Keeps limit above visit
  | ⟨_, _, _, _, children⟩, above, limit =>
      Node.depth_toJson_le_iff_of (Program.depthOfElements_le_iff children (_ :: above) (limit - 2))

theorem Program.depthOfElements_le_iff : ∀ (p : List Node) (above : List Node) (limit : Nat),
    Json.depthOfElements (Program.elements p) ≤ limit
      ↔ ∀ visit ∈ Program.visits above p, Node.Keeps limit above visit
  | [], above, limit => by
      simp [Program.elements, Json.depthOfElements, Program.visits]
  | node :: p, above, limit => by
      rw [Program.elements, Json.depthOfElements, Nat.max_le, Node.depth_toJson_le_iff node above,
        Program.depthOfElements_le_iff p above, Program.visits, List.forall_mem_append]

end

/-- A program nests no more than 127 arrays and objects exactly if its nodes are on the levels 1 to 63, and
those on the last one have no variables. -/
theorem Program.depth_toJson_le_iff (p : Program) :
  p.toJson.depth ≤ 127
    ↔ ∀ visit ∈ Program.visits [] p,
      visit.2.length + 1 ≤ 63 ∧ (visit.2.length + 1 = 63 → visit.1.vars = [])
  := by
  have hlimit : p.toJson.depth ≤ 127 ↔ Json.depthOfElements (Program.elements p) ≤ 126 :=
    Nat.add_le_add_iff_right
  rw [hlimit, Program.depthOfElements_le_iff p []]
  apply forall₂_congr
  intro visit _
  rw [Node.Keeps, Node.ownDepth, List.length_nil]
  by_cases hvars : visit.1.vars = []
  · simp only [hvars, if_true, implies_true, and_true]
    omega
  · simp only [hvars, if_false, imp_false]
    omega

/-- The body of the request that submits a program is read as that program if it nests no more than 127
arrays and objects, and otherwise it is refused. -/
theorem Request.program?_ofProgram (endpoint : String) (p : Program) :
  (Request.ofProgram endpoint p).program? = (if p.toJson.depth ≤ 127 then some p else none)
    ∧ (p.toJson.depth ≤ 127
      ↔ ∀ visit ∈ Program.visits [] p,
        visit.2.length + 1 ≤ 63 ∧ (visit.2.length + 1 = 63 → visit.1.vars = []))
  := by
  constructor
  · rw [program?, ofProgram, Json.read?_render, Option.bind_some, Json.decode?]
    apply Program.inverts
  · apply p.depth_toJson_le_iff

end BlockEditor
