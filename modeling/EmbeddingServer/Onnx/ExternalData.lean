import EmbeddingServer.Core.Contract
import EmbeddingServer.Lib.Worklist

/-!
# The external-data scan of an ONNX model

Before a model reaches the native runtime, `reject_external_data_graph` decodes a probe of
the protocol-buffer message and refuses every tensor whose data lives outside the message.
Graphs contain nodes, nodes contain attributes and attributes contain graphs again; the scan
flattens this nesting into a worklist of graphs that the attribute checks push to.

The specification is the set of tensors of the model, `OnnxModelProbe.HasTensor`, written as
the nesting reads. The scan accepts a probe exactly when none of these tensors is external.
-/

namespace EmbeddingServer

/-- `OnnxStringPairProbe`. -/
structure OnnxStringPairProbe where
  key : Option String
  value : Option String
  deriving DecidableEq

/-- `OnnxTensorProbe`. -/
structure OnnxTensorProbe where
  externalData : List OnnxStringPairProbe
  dataLocation : Option Int32
  deriving DecidableEq

/-- `OnnxSparseTensorProbe`. -/
structure OnnxSparseTensorProbe where
  values : Option OnnxTensorProbe
  indices : Option OnnxTensorProbe
  deriving DecidableEq

mutual
/-- `OnnxGraphProbe`. -/
inductive OnnxGraphProbe where
  | mk (nodes : List OnnxNodeProbe) (initializers : List OnnxTensorProbe)
      (sparseInitializers : List OnnxSparseTensorProbe)

/-- `OnnxNodeProbe`. -/
inductive OnnxNodeProbe where
  | mk (attributes : List OnnxAttributeProbe)

/-- `OnnxAttributeProbe`. -/
inductive OnnxAttributeProbe where
  | mk (tensor : Option OnnxTensorProbe) (graph : Option OnnxGraphProbe)
      (tensors : List OnnxTensorProbe) (graphs : List OnnxGraphProbe)
      (sparseTensor : Option OnnxSparseTensorProbe)
      (sparseTensors : List OnnxSparseTensorProbe)
end

/-- The field `nodes` of a graph. -/
def OnnxGraphProbe.nodes : OnnxGraphProbe → List OnnxNodeProbe
  | .mk nodes _ _ => nodes

/-- The field `initializers` of a graph. -/
def OnnxGraphProbe.initializers : OnnxGraphProbe → List OnnxTensorProbe
  | .mk _ initializers _ => initializers

/-- The field `sparse_initializers` of a graph. -/
def OnnxGraphProbe.sparseInitializers : OnnxGraphProbe → List OnnxSparseTensorProbe
  | .mk _ _ sparseInitializers => sparseInitializers

/-- The field `attributes` of a node. -/
def OnnxNodeProbe.attributes : OnnxNodeProbe → List OnnxAttributeProbe
  | .mk attributes => attributes

/-- The field `tensor` of an attribute. -/
def OnnxAttributeProbe.tensor : OnnxAttributeProbe → Option OnnxTensorProbe
  | .mk tensor _ _ _ _ _ => tensor

/-- The field `graph` of an attribute. -/
def OnnxAttributeProbe.graph : OnnxAttributeProbe → Option OnnxGraphProbe
  | .mk _ graph _ _ _ _ => graph

/-- The field `tensors` of an attribute. -/
def OnnxAttributeProbe.tensors : OnnxAttributeProbe → List OnnxTensorProbe
  | .mk _ _ tensors _ _ _ => tensors

/-- The field `graphs` of an attribute. -/
def OnnxAttributeProbe.graphs : OnnxAttributeProbe → List OnnxGraphProbe
  | .mk _ _ _ graphs _ _ => graphs

/-- The field `sparse_tensor` of an attribute. -/
def OnnxAttributeProbe.sparseTensor : OnnxAttributeProbe → Option OnnxSparseTensorProbe
  | .mk _ _ _ _ sparseTensor _ => sparseTensor

/-- The field `sparse_tensors` of an attribute. -/
def OnnxAttributeProbe.sparseTensors : OnnxAttributeProbe → List OnnxSparseTensorProbe
  | .mk _ _ _ _ _ sparseTensors => sparseTensors

/-- `OnnxTrainingProbe`. -/
structure OnnxTrainingProbe where
  initialization : Option OnnxGraphProbe
  algorithm : Option OnnxGraphProbe

/-- `OnnxFunctionProbe`. -/
structure OnnxFunctionProbe where
  nodes : List OnnxNodeProbe
  attributes : List OnnxAttributeProbe

/-- `OnnxModelProbe`. -/
structure OnnxModelProbe where
  graph : Option OnnxGraphProbe
  trainingInfo : List OnnxTrainingProbe
  functions : List OnnxFunctionProbe

/-! ## The scan -/

/-- `tensor_uses_external_data`. -/
def tensorUsesExternalData (tensor : OnnxTensorProbe) : Bool :=
  tensor.dataLocation == some 1 || !tensor.externalData.isEmpty

/-- `tensors_use_external_data`. -/
def tensorsUseExternalData (tensors : List OnnxTensorProbe) : Bool :=
  tensors.any tensorUsesExternalData

/-- `sparse_uses_external_data`. -/
def sparseUsesExternalData (tensor : OnnxSparseTensorProbe) : Bool :=
  tensor.values.any tensorUsesExternalData || tensor.indices.any tensorUsesExternalData

/-- The closure of `attributes_use_external_data`, less its pushes. -/
def attributeUsesExternalData (attr : OnnxAttributeProbe) : Bool :=
  attr.tensor.any tensorUsesExternalData ||
    tensorsUseExternalData attr.tensors ||
    attr.sparseTensor.any sparseUsesExternalData ||
    attr.sparseTensors.any sparseUsesExternalData

/-- `Vec::extend` on a stack whose top is the head of the list. -/
def extendStack (stack items : List OnnxGraphProbe) : List OnnxGraphProbe :=
  items.reverse ++ stack

/-- `attributes_use_external_data`: the verdict and the worklist it leaves. Iteration stops at
the first external tensor, so the graphs of later attributes are not pushed. -/
def attributesUseExternalData :
    List OnnxAttributeProbe → List OnnxGraphProbe → Bool × List OnnxGraphProbe
  | [], graphs => (false, graphs)
  | attr :: rest, graphs =>
      let graphs := extendStack graphs attr.graph.toList
      let graphs := extendStack graphs attr.graphs
      if attributeUsesExternalData attr then (true, graphs)
      else attributesUseExternalData rest graphs

/-- `nodes_use_external_data`. -/
def nodesUseExternalData :
    List OnnxNodeProbe → List OnnxGraphProbe → Bool × List OnnxGraphProbe
  | [], graphs => (false, graphs)
  | node :: rest, graphs =>
      match attributesUseExternalData node.attributes graphs with
      | (true, graphs) => (true, graphs)
      | (false, graphs) => nodesUseExternalData rest graphs

/-- The loop over `model.functions`. -/
def functionsUseExternalData :
    List OnnxFunctionProbe → List OnnxGraphProbe → Bool × List OnnxGraphProbe
  | [], graphs => (false, graphs)
  | function :: rest, graphs =>
      match nodesUseExternalData function.nodes graphs with
      | (true, graphs) => (true, graphs)
      | (false, graphs) =>
          match attributesUseExternalData function.attributes graphs with
          | (true, graphs) => (true, graphs)
          | (false, graphs) => functionsUseExternalData rest graphs

/-- The worklist after the main graph and the loop over `model.training_info`. -/
def modelGraphs (model : OnnxModelProbe) : List OnnxGraphProbe :=
  model.trainingInfo.foldl
    (fun graphs training =>
      extendStack (extendStack graphs training.initialization.toList) training.algorithm.toList)
    (extendStack [] model.graph.toList)

/-! ### What the checks push -/

/-- The graphs directly inside an attribute. -/
def OnnxAttributeProbe.subgraphs (attr : OnnxAttributeProbe) : List OnnxGraphProbe :=
  attr.graph.toList ++ attr.graphs

/-- The graphs directly inside a list of attributes. -/
def attributeSubgraphs (attributes : List OnnxAttributeProbe) : List OnnxGraphProbe :=
  attributes.flatMap OnnxAttributeProbe.subgraphs

/-- The graphs directly inside a list of nodes. -/
def nodeSubgraphs (nodes : List OnnxNodeProbe) : List OnnxGraphProbe :=
  nodes.flatMap fun node => attributeSubgraphs node.attributes

/-- The check of attributes finds every external tensor, and if there is none it has pushed
every graph. -/
theorem attributes_use_external_data_eq (attributes : List OnnxAttributeProbe)
    (graphs : List OnnxGraphProbe) :
    (attributesUseExternalData attributes graphs).1 = attributes.any attributeUsesExternalData ∧
    (attributes.any attributeUsesExternalData = false →
      (attributesUseExternalData attributes graphs).2 =
        (attributeSubgraphs attributes).reverse ++ graphs) := by
  induction attributes generalizing graphs with
  | nil => exact ⟨rfl, fun _ => rfl⟩
  | cons attr rest ih =>
      rw [attributesUseExternalData, List.any_cons]
      cases h : attributeUsesExternalData attr with
      | true => exact ⟨rfl, fun hclean => by cases hclean⟩
      | false =>
          obtain ⟨hverdict, hpushed⟩ := ih (extendStack (extendStack graphs attr.graph.toList)
            attr.graphs)
          rw [Bool.false_or]
          constructor
          · exact hverdict
          · intro hclean
            show (attributesUseExternalData rest _).2 = _
            rw [hpushed hclean]
            simp [attributeSubgraphs, OnnxAttributeProbe.subgraphs, extendStack]

/-- The check of nodes finds every external tensor of their attributes, and if there is none
it has pushed every graph. -/
theorem nodes_use_external_data_eq (nodes : List OnnxNodeProbe) (graphs : List OnnxGraphProbe) :
    (nodesUseExternalData nodes graphs).1 =
      nodes.any (fun node => node.attributes.any attributeUsesExternalData) ∧
    (nodes.any (fun node => node.attributes.any attributeUsesExternalData) = false →
      (nodesUseExternalData nodes graphs).2 = (nodeSubgraphs nodes).reverse ++ graphs) := by
  induction nodes generalizing graphs with
  | nil => exact ⟨rfl, fun _ => rfl⟩
  | cons node rest ih =>
      obtain ⟨hverdict, hpushed⟩ := attributes_use_external_data_eq node.attributes graphs
      rw [nodesUseExternalData, List.any_cons]
      cases hscan : attributesUseExternalData node.attributes graphs with
      | mk verdict pushed =>
          rw [hscan] at hverdict hpushed
          cases verdict with
          | true => simp [← hverdict]
          | false =>
              rw [← hverdict, Bool.false_or]
              obtain ⟨hrest, hpushedRest⟩ := ih pushed
              constructor
              · exact hrest
              · intro hclean
                have hpushed : pushed = _ := hpushed hverdict.symm
                show (nodesUseExternalData rest pushed).2 = _
                rw [hpushedRest hclean, hpushed]
                simp [nodeSubgraphs]

/-- The graphs directly inside a list of functions. -/
def functionSubgraphs (functions : List OnnxFunctionProbe) : List OnnxGraphProbe :=
  functions.flatMap fun function =>
    nodeSubgraphs function.nodes ++ attributeSubgraphs function.attributes

/-- The check of functions finds every external tensor of their nodes and attributes, and if
there is none it has pushed every graph. -/
theorem functions_use_external_data_eq (functions : List OnnxFunctionProbe)
    (graphs : List OnnxGraphProbe) :
    (functionsUseExternalData functions graphs).1 =
      functions.any (fun function =>
        function.nodes.any (fun node => node.attributes.any attributeUsesExternalData) ||
          function.attributes.any attributeUsesExternalData) ∧
    ((functionsUseExternalData functions graphs).1 = false →
      (functionsUseExternalData functions graphs).2 =
        (functionSubgraphs functions).reverse ++ graphs) := by
  induction functions generalizing graphs with
  | nil => exact ⟨rfl, fun _ => rfl⟩
  | cons function rest ih =>
      obtain ⟨hnodes, hpushed⟩ := nodes_use_external_data_eq function.nodes graphs
      rw [functionsUseExternalData, List.any_cons]
      cases hscan : nodesUseExternalData function.nodes graphs with
      | mk verdict pushed =>
          rw [hscan] at hnodes hpushed
          cases verdict with
          | true => simp [← hnodes]
          | false =>
              have hpushed : pushed = _ := hpushed hnodes.symm
              obtain ⟨hattrs, hpushedAttrs⟩ :=
                attributes_use_external_data_eq function.attributes pushed
              rw [← hnodes, Bool.false_or]
              dsimp only
              cases hscanAttrs : attributesUseExternalData function.attributes pushed with
              | mk verdict pushedTwice =>
                  rw [hscanAttrs] at hattrs hpushedAttrs
                  cases verdict with
                  | true => simp [← hattrs]
                  | false =>
                      have hpushedAttrs : pushedTwice = _ := hpushedAttrs hattrs.symm
                      obtain ⟨hrest, hpushedRest⟩ := ih pushedTwice
                      rw [← hattrs, Bool.false_or]
                      constructor
                      · exact hrest
                      · intro hclean
                        show (functionsUseExternalData rest pushedTwice).2 = _
                        rw [hpushedRest hclean, hpushedAttrs, hpushed]
                        simp [functionSubgraphs]

/-! ### The loop over the worklist -/

/-- Each graph inside an attribute is smaller than the attribute, all of them together. -/
theorem subgraphs_size_lt (attr : OnnxAttributeProbe) :
    (attr.subgraphs.map sizeOf).sum < sizeOf attr := by
  have hlist : ∀ graphs : List OnnxGraphProbe, (graphs.map sizeOf).sum < sizeOf graphs := by
    intro graphs
    induction graphs with
    | nil => simp
    | cons graph rest ih =>
        rw [List.map_cons, List.sum_cons, List.cons.sizeOf_spec]
        omega
  cases attr with
  | mk tensor graph tensors graphs sparseTensor sparseTensors =>
      have := hlist graphs
      rw [OnnxAttributeProbe.subgraphs, List.map_append, List.sum_append]
      cases graph with
      | none =>
          simp only [OnnxAttributeProbe.graph, OnnxAttributeProbe.graphs, Option.toList_none,
            List.map_nil, List.sum_nil, OnnxAttributeProbe.mk.sizeOf_spec]
          omega
      | some graph =>
          simp only [OnnxAttributeProbe.graph, OnnxAttributeProbe.graphs, Option.toList_some,
            List.map_cons, List.map_nil, List.sum_cons, List.sum_nil,
            OnnxAttributeProbe.mk.sizeOf_spec, Option.some.sizeOf_spec]
          omega

/-- A list of containers is larger than what they contain, when each one is. -/
theorem flat_map_size_lt {α : Type} [SizeOf α] {inside : α → List OnnxGraphProbe}
    (h : ∀ item, ((inside item).map sizeOf).sum < sizeOf item) (items : List α) :
    ((items.flatMap inside).map sizeOf).sum < sizeOf items := by
  induction items with
  | nil => simp
  | cons item rest ih =>
      have := h item
      rw [List.flatMap_cons, List.map_append, List.sum_append, List.cons.sizeOf_spec]
      omega

/-- The graphs directly inside a graph are smaller than the graph, all of them together. -/
theorem node_subgraphs_size_lt (graph : OnnxGraphProbe) :
    ((nodeSubgraphs graph.nodes).map sizeOf).sum < sizeOf graph := by
  have hnode : ∀ node : OnnxNodeProbe,
      ((attributeSubgraphs node.attributes).map sizeOf).sum < sizeOf node := by
    intro node
    cases node with
    | mk attributes =>
        have := flat_map_size_lt subgraphs_size_lt attributes
        rw [OnnxNodeProbe.mk.sizeOf_spec]
        show ((attributes.flatMap OnnxAttributeProbe.subgraphs).map sizeOf).sum < _
        omega
  cases graph with
  | mk nodes initializers sparseInitializers =>
      have := flat_map_size_lt hnode nodes
      rw [OnnxGraphProbe.mk.sizeOf_spec]
      show ((nodes.flatMap fun node => attributeSubgraphs node.attributes).map sizeOf).sum < _
      omega

/-- The loop `while let Some(graph) = graphs.pop()`: whether it returns the error. A round
replaces a graph by the graphs inside it, which are smaller. -/
def graphsUseExternalData : List OnnxGraphProbe → Bool
  | [] => false
  | graph :: graphs =>
      if tensorsUseExternalData graph.initializers ||
          graph.sparseInitializers.any sparseUsesExternalData then true
      else
        match _h : nodesUseExternalData graph.nodes graphs with
        | (true, _) => true
        | (false, pushed) => graphsUseExternalData pushed
termination_by graphs => (graphs.map sizeOf).sum
decreasing_by
  obtain ⟨hverdict, hpushed⟩ := nodes_use_external_data_eq graph.nodes graphs
  rw [_h] at hverdict hpushed
  have hpushed : pushed = _ := hpushed hverdict.symm
  have hsize := node_subgraphs_size_lt graph
  rw [hpushed, List.map_append, List.sum_append, List.map_reverse, List.sum_reverse,
    List.map_cons, List.sum_cons]
  omega

/-- `reject_external_data_graph`. The decoder of the protocol-buffer message is a parameter. -/
def rejectExternalDataGraph (decode : List UInt8 → Except String OnnxModelProbe)
    (bytes : List UInt8) : Except EngineFailure Unit :=
  match decode bytes with
  | .error error =>
      .error ⟨.forCode .modelUnavailable, some s!"ONNX inspection failed: {error}"⟩
  | .ok model =>
      match functionsUseExternalData model.functions (modelGraphs model) with
      | (true, _) => .error (.public .invalidRequest)
      | (false, graphs) =>
          if graphsUseExternalData graphs then .error (.public .invalidRequest) else .ok ()

/-! ## The tensors of a model -/

/-- A tensor of a sparse tensor: its values or its indices. -/
def OnnxSparseTensorProbe.HasTensor (sparse : OnnxSparseTensorProbe)
    (tensor : OnnxTensorProbe) : Prop :=
  sparse.values = some tensor ∨ sparse.indices = some tensor

/-- A tensor that an attribute carries itself. -/
inductive OnnxAttributeProbe.HasTensor (attr : OnnxAttributeProbe) : OnnxTensorProbe → Prop where
  | tensor {tensor : OnnxTensorProbe} : attr.tensor = some tensor → attr.HasTensor tensor
  | tensors {tensor : OnnxTensorProbe} : tensor ∈ attr.tensors → attr.HasTensor tensor
  | sparse_tensor {sparse : OnnxSparseTensorProbe} {tensor : OnnxTensorProbe} :
      attr.sparseTensor = some sparse → sparse.HasTensor tensor → attr.HasTensor tensor
  | sparse_tensors {sparse : OnnxSparseTensorProbe} {tensor : OnnxTensorProbe} :
      sparse ∈ attr.sparseTensors → sparse.HasTensor tensor → attr.HasTensor tensor

/-- A graph that an attribute carries. -/
def OnnxAttributeProbe.HasGraph (attr : OnnxAttributeProbe) (graph : OnnxGraphProbe) : Prop :=
  attr.graph = some graph ∨ graph ∈ attr.graphs

/-- A tensor that a graph carries itself. -/
inductive OnnxGraphProbe.HasTensor (graph : OnnxGraphProbe) : OnnxTensorProbe → Prop where
  | initializer {tensor : OnnxTensorProbe} : tensor ∈ graph.initializers → graph.HasTensor tensor
  | sparse_initializer {sparse : OnnxSparseTensorProbe} {tensor : OnnxTensorProbe} :
      sparse ∈ graph.sparseInitializers → sparse.HasTensor tensor → graph.HasTensor tensor

/-- An attribute of a function: of one of its nodes or its own. -/
def OnnxFunctionProbe.HasAttribute (function : OnnxFunctionProbe)
    (attr : OnnxAttributeProbe) : Prop :=
  (∃ node ∈ function.nodes, attr ∈ node.attributes) ∨ attr ∈ function.attributes

/-- A graph that can be reached in a model: the main graph, the two graphs of a training
record, and every graph of an attribute of a function or of a graph that can be reached. -/
inductive OnnxModelProbe.HasGraph (model : OnnxModelProbe) : OnnxGraphProbe → Prop where
  | main {graph : OnnxGraphProbe} : model.graph = some graph → model.HasGraph graph
  | initialization {training : OnnxTrainingProbe} {graph : OnnxGraphProbe} :
      training ∈ model.trainingInfo → training.initialization = some graph → model.HasGraph graph
  | algorithm {training : OnnxTrainingProbe} {graph : OnnxGraphProbe} :
      training ∈ model.trainingInfo → training.algorithm = some graph → model.HasGraph graph
  | function {function : OnnxFunctionProbe} {attr : OnnxAttributeProbe} {graph : OnnxGraphProbe} :
      function ∈ model.functions → function.HasAttribute attr → attr.HasGraph graph →
      model.HasGraph graph
  | subgraph {parent graph : OnnxGraphProbe} {node : OnnxNodeProbe} {attr : OnnxAttributeProbe} :
      model.HasGraph parent → node ∈ parent.nodes → attr ∈ node.attributes →
      attr.HasGraph graph → model.HasGraph graph

/-- An attribute that can be reached in a model. -/
inductive OnnxModelProbe.HasAttribute (model : OnnxModelProbe) : OnnxAttributeProbe → Prop where
  | function {function : OnnxFunctionProbe} {attr : OnnxAttributeProbe} :
      function ∈ model.functions → function.HasAttribute attr → model.HasAttribute attr
  | node {graph : OnnxGraphProbe} {node : OnnxNodeProbe} {attr : OnnxAttributeProbe} :
      model.HasGraph graph → node ∈ graph.nodes → attr ∈ node.attributes → model.HasAttribute attr

/-- A tensor that can be reached in a model. -/
def OnnxModelProbe.HasTensor (model : OnnxModelProbe) (tensor : OnnxTensorProbe) : Prop :=
  (∃ graph, model.HasGraph graph ∧ graph.HasTensor tensor) ∨
    ∃ attr, model.HasAttribute attr ∧ attr.HasTensor tensor

/-- A tensor uses external data: its location says so, or it lists external data. -/
def OnnxTensorProbe.External (tensor : OnnxTensorProbe) : Prop :=
  tensor.dataLocation = some 1 ∨ tensor.externalData ≠ []

/-! ### The checks against the specification -/

/-- The check of one tensor. -/
theorem tensor_uses_external_data_iff (tensor : OnnxTensorProbe) :
    tensorUsesExternalData tensor = true ↔ tensor.External := by
  rw [tensorUsesExternalData, OnnxTensorProbe.External]
  simp

/-- The check of an optional tensor. -/
theorem any_uses_external_data_iff (tensor : Option OnnxTensorProbe) :
    tensor.any tensorUsesExternalData = true ↔
      ∃ inner, tensor = some inner ∧ inner.External := by
  rw [Option.any_eq_true]
  simp only [tensor_uses_external_data_iff]

/-- The check of one sparse tensor. -/
theorem sparse_uses_external_data_iff (sparse : OnnxSparseTensorProbe) :
    sparseUsesExternalData sparse = true ↔
      ∃ tensor, sparse.HasTensor tensor ∧ tensor.External := by
  rw [sparseUsesExternalData, Bool.or_eq_true, any_uses_external_data_iff,
    any_uses_external_data_iff]
  simp only [OnnxSparseTensorProbe.HasTensor, or_and_right, exists_or]

/-- The check of one attribute. -/
theorem attribute_uses_external_data_iff (attr : OnnxAttributeProbe) :
    attributeUsesExternalData attr = true ↔ ∃ tensor, attr.HasTensor tensor ∧ tensor.External := by
  rw [attributeUsesExternalData]
  simp only [Bool.or_eq_true, tensorsUseExternalData, List.any_eq_true,
    tensor_uses_external_data_iff, Option.any_eq_true, sparse_uses_external_data_iff]
  constructor
  · rintro (((⟨tensor, hmem, hext⟩ | ⟨tensor, hmem, hext⟩) | ⟨sparse, hmem, tensor, hpart, hext⟩) |
      ⟨sparse, hmem, tensor, hpart, hext⟩)
    · exact ⟨tensor, .tensor hmem, hext⟩
    · exact ⟨tensor, .tensors hmem, hext⟩
    · exact ⟨tensor, .sparse_tensor hmem hpart, hext⟩
    · exact ⟨tensor, .sparse_tensors hmem hpart, hext⟩
  · rintro ⟨tensor, hmem, hext⟩
    cases hmem with
    | tensor hmem => exact .inl (.inl (.inl ⟨tensor, hmem, hext⟩))
    | tensors hmem => exact .inl (.inl (.inr ⟨tensor, hmem, hext⟩))
    | sparse_tensor hmem hpart => exact .inl (.inr ⟨_, hmem, tensor, hpart, hext⟩)
    | sparse_tensors hmem hpart => exact .inr ⟨_, hmem, tensor, hpart, hext⟩

/-- A graph of the worklist is a hit: it has an external tensor, itself or in an attribute of
one of its nodes. -/
def OnnxGraphProbe.Hit (graph : OnnxGraphProbe) : Prop :=
  (∃ tensor, graph.HasTensor tensor ∧ tensor.External) ∨
    ∃ node ∈ graph.nodes, ∃ attr ∈ node.attributes, ∃ tensor,
      attr.HasTensor tensor ∧ tensor.External

/-- The checks that a round makes before it looks at the nodes. -/
theorem graph_uses_external_data_iff (graph : OnnxGraphProbe) :
    (tensorsUseExternalData graph.initializers ||
        graph.sparseInitializers.any sparseUsesExternalData) = true ↔
      ∃ tensor, graph.HasTensor tensor ∧ tensor.External := by
  simp only [Bool.or_eq_true, tensorsUseExternalData, List.any_eq_true,
    tensor_uses_external_data_iff, sparse_uses_external_data_iff]
  constructor
  · rintro (⟨tensor, hmem, hext⟩ | ⟨sparse, hmem, tensor, hpart, hext⟩)
    · exact ⟨tensor, .initializer hmem, hext⟩
    · exact ⟨tensor, .sparse_initializer hmem hpart, hext⟩
  · rintro ⟨tensor, hmem, hext⟩
    cases hmem with
    | initializer hmem => exact .inl ⟨tensor, hmem, hext⟩
    | sparse_initializer hmem hpart => exact .inr ⟨_, hmem, tensor, hpart, hext⟩

/-- The check that a round makes of the nodes. -/
theorem nodes_use_external_data_iff (nodes : List OnnxNodeProbe) :
    nodes.any (fun node => node.attributes.any attributeUsesExternalData) = true ↔
      ∃ node ∈ nodes, ∃ attr ∈ node.attributes, ∃ tensor,
        attr.HasTensor tensor ∧ tensor.External := by
  simp only [List.any_eq_true, attribute_uses_external_data_iff]

/-- The loop stops with the error at a hit. -/
theorem graphs_use_external_data_hit {graph : OnnxGraphProbe} (graphs : List OnnxGraphProbe)
    (h : graph.Hit) : graphsUseExternalData (graph :: graphs) = true := by
  rw [graphsUseExternalData]
  cases h with
  | inl htensor => rw [if_pos ((graph_uses_external_data_iff graph).mpr htensor)]
  | inr hnodes =>
      have hverdict := (nodes_use_external_data_eq graph.nodes graphs).1
      rw [(nodes_use_external_data_iff graph.nodes).mpr hnodes] at hverdict
      split
      · rfl
      · split
        · rfl
        · rename_i pushed hscan
          rw [hscan] at hverdict
          cases hverdict

/-- A round without a hit pushes every graph inside the graph it took. -/
theorem graphs_use_external_data_miss {graph : OnnxGraphProbe} (graphs : List OnnxGraphProbe)
    (h : ¬ graph.Hit) :
    graphsUseExternalData (graph :: graphs) =
      graphsUseExternalData ((nodeSubgraphs graph.nodes).reverse ++ graphs) := by
  rw [OnnxGraphProbe.Hit, not_or, ← graph_uses_external_data_iff, ← nodes_use_external_data_iff,
    Bool.not_eq_true, Bool.not_eq_true] at h
  obtain ⟨hverdict, hpushed⟩ := nodes_use_external_data_eq graph.nodes graphs
  rw [h.2] at hverdict
  rw [graphsUseExternalData, h.1, if_neg Bool.false_ne_true]
  split
  · rename_i hscan
    rw [hscan] at hverdict
    cases hverdict
  · rename_i pushed hscan
    rw [← hpushed h.2, hscan]

/-! ### The worklist against the graphs of the model -/

/-- The graphs of an attribute. -/
theorem mem_subgraphs_iff {attr : OnnxAttributeProbe} {graph : OnnxGraphProbe} :
    graph ∈ attr.subgraphs ↔ attr.HasGraph graph := by
  rw [OnnxAttributeProbe.subgraphs, List.mem_append, Option.mem_toList]
  rfl

/-- The graphs of the attributes of a list of nodes. -/
theorem mem_node_subgraphs_iff {nodes : List OnnxNodeProbe} {graph : OnnxGraphProbe} :
    graph ∈ nodeSubgraphs nodes ↔
      ∃ node ∈ nodes, ∃ attr ∈ node.attributes, attr.HasGraph graph := by
  simp only [nodeSubgraphs, attributeSubgraphs, List.mem_flatMap, mem_subgraphs_iff]

/-- The graphs of the attributes of a list of functions. -/
theorem mem_function_subgraphs_iff {functions : List OnnxFunctionProbe} {graph : OnnxGraphProbe} :
    graph ∈ functionSubgraphs functions ↔
      ∃ function ∈ functions, ∃ attr, function.HasAttribute attr ∧ attr.HasGraph graph := by
  simp only [functionSubgraphs, List.mem_flatMap, List.mem_append, mem_node_subgraphs_iff,
    attributeSubgraphs, mem_subgraphs_iff]
  constructor
  · rintro ⟨function, hfunction, ⟨node, hnode, attr, hattr, hgraph⟩ | ⟨attr, hattr, hgraph⟩⟩
    · exact ⟨function, hfunction, attr, .inl ⟨node, hnode, hattr⟩, hgraph⟩
    · exact ⟨function, hfunction, attr, .inr hattr, hgraph⟩
  · rintro ⟨function, hfunction, attr, ⟨node, hnode, hattr⟩ | hattr, hgraph⟩
    · exact ⟨function, hfunction, .inl ⟨node, hnode, attr, hattr, hgraph⟩⟩
    · exact ⟨function, hfunction, .inr ⟨attr, hattr, hgraph⟩⟩

/-- The loop over the training records adds their graphs. -/
theorem mem_training_graphs_iff {graph : OnnxGraphProbe} (records : List OnnxTrainingProbe)
    (graphs : List OnnxGraphProbe) :
    graph ∈ records.foldl
        (fun graphs training =>
          extendStack (extendStack graphs training.initialization.toList)
            training.algorithm.toList) graphs ↔
      graph ∈ graphs ∨ ∃ training ∈ records,
        training.initialization = some graph ∨ training.algorithm = some graph := by
  induction records generalizing graphs with
  | nil => simp
  | cons training rest ih =>
      rw [List.foldl_cons, ih]
      simp only [extendStack, List.mem_append, List.mem_reverse, Option.mem_toList,
        List.exists_mem_cons_iff]
      rw [← or_assoc (c := graph ∈ graphs), or_comm (b := graph ∈ graphs), or_assoc,
        or_comm (a := training.algorithm = some graph)]

/-- The worklist starts with the main graph and the graphs of the training records. -/
theorem mem_model_graphs_iff {model : OnnxModelProbe} {graph : OnnxGraphProbe} :
    graph ∈ modelGraphs model ↔ model.graph = some graph ∨ ∃ training ∈ model.trainingInfo,
      training.initialization = some graph ∨ training.algorithm = some graph := by
  rw [modelGraphs, mem_training_graphs_iff]
  simp [extendStack]

/-- The loop reaches exactly the graphs of the model. -/
theorem reach_iff_has_graph {model : OnnxModelProbe} {graph : OnnxGraphProbe} :
    Worklist.Reach (fun parent => nodeSubgraphs parent.nodes)
        ((functionSubgraphs model.functions).reverse ++ modelGraphs model) graph ↔
      model.HasGraph graph := by
  constructor
  · intro h
    induction h with
    | root hmem =>
        rw [List.mem_append, List.mem_reverse, mem_function_subgraphs_iff, mem_model_graphs_iff]
          at hmem
        rcases hmem with ⟨function, hfunction, attr, hattr, hgraph⟩ | hmain |
          ⟨training, htraining, hgraph | hgraph⟩
        · exact .function hfunction hattr hgraph
        · exact .main hmain
        · exact .initialization htraining hgraph
        · exact .algorithm htraining hgraph
    | step _ hchild ih =>
        obtain ⟨node, hnode, attr, hattr, hgraph⟩ := mem_node_subgraphs_iff.mp hchild
        exact .subgraph ih hnode hattr hgraph
  · intro h
    induction h with
    | main hgraph =>
        exact .root (List.mem_append_right _ (mem_model_graphs_iff.mpr (.inl hgraph)))
    | initialization htraining hgraph =>
        exact .root (List.mem_append_right _
          (mem_model_graphs_iff.mpr (.inr ⟨_, htraining, .inl hgraph⟩)))
    | algorithm htraining hgraph =>
        exact .root (List.mem_append_right _
          (mem_model_graphs_iff.mpr (.inr ⟨_, htraining, .inr hgraph⟩)))
    | function hfunction hattr hgraph =>
        exact .root (List.mem_append_left _ (List.mem_reverse.mpr
          (mem_function_subgraphs_iff.mpr ⟨_, hfunction, _, hattr, hgraph⟩)))
    | subgraph _ hnode hattr hgraph ih =>
        exact .step ih (mem_node_subgraphs_iff.mpr ⟨_, hnode, _, hattr, hgraph⟩)

/-- The loop returns the error exactly when a graph that it reaches is a hit. -/
theorem graphs_use_external_data_iff (graphs : List OnnxGraphProbe) :
    graphsUseExternalData graphs = true ↔
      ∃ graph, Worklist.Reach (fun parent => nodeSubgraphs parent.nodes) graphs graph ∧
        graph.Hit := by
  apply Worklist.search_iff (fun parent => (nodeSubgraphs parent.nodes).reverse) sizeOf
  · intro parent child
    exact List.mem_reverse
  · rw [graphsUseExternalData]
  · intro graph rest hhit
    exact graphs_use_external_data_hit rest hhit
  · intro graph rest hmiss
    exact graphs_use_external_data_miss rest hmiss
  · intro graph
    rw [List.map_reverse, List.sum_reverse]
    exact node_subgraphs_size_lt graph

/-- The loop over the functions returns the error exactly when one of their attributes has an
external tensor. -/
theorem functions_use_external_data_iff (functions : List OnnxFunctionProbe)
    (graphs : List OnnxGraphProbe) :
    (functionsUseExternalData functions graphs).1 = true ↔
      ∃ function ∈ functions, ∃ attr, function.HasAttribute attr ∧ ∃ tensor,
        attr.HasTensor tensor ∧ tensor.External := by
  rw [(functions_use_external_data_eq functions graphs).1, List.any_eq_true]
  simp only [Bool.or_eq_true, List.any_eq_true, attribute_uses_external_data_iff]
  constructor
  · rintro ⟨function, hfunction, ⟨node, hnode, attr, hattr, htensor⟩ | ⟨attr, hattr, htensor⟩⟩
    · exact ⟨function, hfunction, attr, .inl ⟨node, hnode, hattr⟩, htensor⟩
    · exact ⟨function, hfunction, attr, .inr hattr, htensor⟩
  · rintro ⟨function, hfunction, attr, ⟨node, hnode, hattr⟩ | hattr, htensor⟩
    · exact ⟨function, hfunction, .inl ⟨node, hnode, attr, hattr, htensor⟩⟩
    · exact ⟨function, hfunction, .inr ⟨attr, hattr, htensor⟩⟩

/-- A model has an external tensor exactly when an attribute of a function has one or a graph
of the model is a hit. -/
theorem OnnxModelProbe.external_iff (model : OnnxModelProbe) :
    (∃ tensor, model.HasTensor tensor ∧ tensor.External) ↔
      (∃ function ∈ model.functions, ∃ attr, function.HasAttribute attr ∧ ∃ tensor,
        attr.HasTensor tensor ∧ tensor.External) ∨
      ∃ graph, model.HasGraph graph ∧ graph.Hit := by
  constructor
  · rintro ⟨tensor, ⟨graph, hgraph, htensor⟩ | ⟨attr, hattr, htensor⟩, hext⟩
    · exact .inr ⟨graph, hgraph, .inl ⟨tensor, htensor, hext⟩⟩
    · cases hattr with
      | function hfunction hattr => exact .inl ⟨_, hfunction, attr, hattr, tensor, htensor, hext⟩
      | node hgraph hnode hattr =>
          exact .inr ⟨_, hgraph, .inr ⟨_, hnode, attr, hattr, tensor, htensor, hext⟩⟩
  · rintro (⟨function, hfunction, attr, hattr, tensor, htensor, hext⟩ |
      ⟨graph, hgraph, ⟨tensor, htensor, hext⟩ | ⟨node, hnode, attr, hattr, tensor, htensor, hext⟩⟩)
    · exact ⟨tensor, .inr ⟨attr, .function hfunction hattr, htensor⟩, hext⟩
    · exact ⟨tensor, .inl ⟨graph, hgraph, htensor⟩, hext⟩
    · exact ⟨tensor, .inr ⟨attr, .node hgraph hnode hattr, htensor⟩, hext⟩

/-- The scan of a decoded model accepts it exactly when no tensor of the model, at any depth,
uses external data. -/
theorem external_data_scan_complete (decode : List UInt8 → Except String OnnxModelProbe)
    (bytes : List UInt8) (model : OnnxModelProbe) (hdecode : decode bytes = .ok model) :
    rejectExternalDataGraph decode bytes = .ok () ↔
      ∀ tensor, model.HasTensor tensor → ¬ tensor.External := by
  have hiff : (∀ tensor, model.HasTensor tensor → ¬ tensor.External) ↔
      ¬ ∃ tensor, model.HasTensor tensor ∧ tensor.External := by
    simp only [not_exists, not_and]
  rw [hiff, model.external_iff, ← functions_use_external_data_iff _ (modelGraphs model)]
  have hpushed := (functions_use_external_data_eq model.functions (modelGraphs model)).2
  unfold rejectExternalDataGraph
  rw [hdecode]
  dsimp only
  cases hscan : functionsUseExternalData model.functions (modelGraphs model) with
  | mk verdict graphs =>
      cases verdict with
      | true => simp
      | false =>
          rw [hscan] at hpushed
          have hgraphs : graphs = _ := hpushed rfl
          have hloop := graphs_use_external_data_iff graphs
          rw [hgraphs] at hloop
          simp only [reach_iff_has_graph] at hloop
          rw [← hgraphs] at hloop
          rw [← hloop]
          by_cases hfound : graphsUseExternalData graphs = true
          · simp [hfound]
          · simp [hfound]

/-- A tensor that names a file outside the message. -/
def externalTensor : OnnxTensorProbe :=
  ⟨[⟨some "location", some "weights.bin"⟩], some 1⟩

/-- A model whose main graph has a node with a branch, in which a node of an inner loop body
carries the external tensor. -/
def branchingProbe : OnnxModelProbe :=
  let body : OnnxGraphProbe := .mk [] [externalTensor] []
  let branch : OnnxGraphProbe := .mk [.mk [.mk none (some body) [] [] none []]] [] []
  ⟨some (.mk [.mk [.mk none none [] [branch] none []]] [] []), [], []⟩

/-- The scan refuses the model with the external tensor two graphs down. -/
theorem external_data_scan_complete_nested :
    rejectExternalDataGraph (fun _ => .ok branchingProbe) [] ≠ .ok () := by
  intro h
  have hnone := (external_data_scan_complete (fun _ => .ok branchingProbe) [] branchingProbe
    rfl).mp h
  apply hnone externalTensor _ (.inl rfl)
  refine .inl ⟨.mk [] [externalTensor] [], ?_, .initializer List.mem_cons_self⟩
  refine .subgraph (.subgraph (.main rfl) List.mem_cons_self List.mem_cons_self
    (.inr List.mem_cons_self)) List.mem_cons_self List.mem_cons_self (.inl rfl)

end EmbeddingServer
