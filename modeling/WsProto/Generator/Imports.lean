import WsProto.Generator.Model

/-!
# Every import is used

Go rejects a file with an unused import, and the generator asks for names before it knows
whether the kind of the method prints them.  What a function imports and does not print
is its debt.  In the end every debt is settled by the gRPC bridge of the same service: the
stream shim prints the packages of the runtime, in a service without methods too, and the
bridge method prints the request and the response of its method, of whatever kind.

* `owes_genGRPCStreamShim`, `standing_of_shim` — the shim owes nothing and settles the
  standing debts;
* `owes_genBridgeMethod`, `messages_of_bridgeMethod` — a bridge method settles its messages;
* `imports_used` — no generated file has an unused import.
-/

namespace WsProto.Generator

open Emitter Emit

section GeneratedFile

variable (gf : GoImportPath)

/-! ## Names -/

/-- What asking for a name of a package imports: nothing, if it is the file's own. -/
def ref (path : GoImportPath) : List GoImportPath := if path = gf then [] else [path]

@[simp] theorem imports_qualifiedGoIdent (id : GoIdent) :
    (qualifiedGoIdent gf id).imports = ref gf id.goImportPath := by
  unfold qualifiedGoIdent ref
  split <;> rfl

@[simp] theorem lines_qualifiedGoIdent (id : GoIdent) : (qualifiedGoIdent gf id).lines = [] := by
  unfold qualifiedGoIdent
  split <;> rfl

@[simp] theorem refs_nil : Line.refs [] = [] := rfl

@[simp] theorem refs_text (s : String) (l : Line) : Line.refs (.text s :: l) = Line.refs l := rfl

@[simp] theorem refs_quoted (s : String) (l : Line) : Line.refs (.quoted s :: l) = Line.refs l :=
  rfl

@[simp] theorem refs_comment (s : String) (l : Line) : Line.refs (.comment s :: l) = [] := rfl

/-- A name that was asked for refers to what asking for it has imported. -/
@[simp] theorem refs_qualifiedGoIdent (id : GoIdent) (l : Line) :
    Line.refs ((qualifiedGoIdent gf id).val :: l) = ref gf id.goImportPath ++ Line.refs l := by
  unfold qualifiedGoIdent ref
  split <;> rfl

@[simp] theorem imports_P (l : Line) : (P l).imports = [] := rfl

@[simp] theorem lines_P (l : Line) : (P l).lines = [l] := rfl

@[simp] theorem imports_streamKindIdent (m : Method) :
    (streamKindIdent gf m).imports = ref gf wsrpcImport := by
  unfold streamKindIdent
  split <;> simp [ident]

variable (toLower : Char → Char) (svc : Service)

/-- The packages of the runtime. -/
def standing : List GoImportPath :=
  ref gf wsrpcImport ++ ref gf contextImport ++ ref gf metadataImport ++ ref gf protoImport ++
    ref gf codesImport

/-- The packages of a method's messages. -/
def messages (m : Method) : List GoImportPath :=
  ref gf m.input.goImportPath ++ ref gf m.output.goImportPath

/-- What a service may owe: the packages of the runtime and of its messages. -/
def debts : List GoImportPath := standing gf ++ svc.methods.flatMap (messages gf)

/-- The packages of the runtime are among the debts of a service. -/
theorem standing_subset :
    ref gf wsrpcImport ⊆ debts gf svc ∧ ref gf contextImport ⊆ debts gf svc ∧
      ref gf metadataImport ⊆ debts gf svc ∧ ref gf protoImport ⊆ debts gf svc ∧
        ref gf codesImport ⊆ debts gf svc := by
  have h : standing gf ⊆ debts gf svc := List.subset_append_left _ _
  simpa only [standing, List.append_subset, and_assoc] using h

/-- So are those of its messages. -/
theorem messages_subset {m : Method} (hm : m ∈ svc.methods) :
    ref gf m.input.goImportPath ⊆ debts gf svc ∧ ref gf m.output.goImportPath ⊆ debts gf svc := by
  rw [← List.append_subset]
  exact List.subset_append_of_subset_right _ fun p hp => List.mem_flatMap.2 ⟨m, hm, hp⟩

/-! ## The handler interface and the registrar -/

section Debts

variable {gf svc} {m : Method} (hm : m ∈ svc.methods)
include hm

theorem owes_genHandlerMethod : Owes Line.refs (genHandlerMethod gf svc m) (debts gf svc) := by
  refine .of_imports ?_
  have hstanding := standing_subset gf svc
  have hmessages := messages_subset gf svc hm
  rw [genHandlerMethod]
  cases methodKind m <;> simp [ident, hstanding, hmessages]

theorem owes_genServerStreamWrapper :
    Owes Line.refs (genServerStreamWrapper gf svc m) (debts gf svc) := by
  refine .of_imports ?_
  simp [genServerStreamWrapper, ident, standing_subset gf svc, messages_subset gf svc hm]

theorem owes_genClientIfaceMethod (ctx callOpt : Piece) :
    Owes Line.refs (genClientIfaceMethod gf svc ctx callOpt m) (debts gf svc) := by
  refine .of_imports ?_
  have hmessages := messages_subset gf svc hm
  rw [genClientIfaceMethod]
  cases methodKind m <;> simp [hmessages]

theorem owes_genClientStreamWrapper :
    Owes Line.refs (genClientStreamWrapper gf svc m) (debts gf svc) := by
  refine .of_imports ?_
  rw [genClientStreamWrapper]
  by_cases hk : methodKind m = .kindClientStream <;>
    simp [hk, ident, standing_subset gf svc, messages_subset gf svc hm]

theorem owes_genClientMethod (impl : String) :
    Owes Line.refs (genClientMethod gf svc impl m) (debts gf svc) := by
  refine .of_imports ?_
  have hstanding := standing_subset gf svc
  have hmessages := messages_subset gf svc hm
  rw [genClientMethod]
  cases methodKind m <;> simp [ident, hstanding, hmessages]

end Debts

/-- `io` is asked for only where it is printed. -/
theorem io_of_adapterBody {m : Method} {req : Piece} :
    (genAdapterBody gf svc m req).imports ⊆
      ref gf wsrpcImport ++ refers Line.refs (genAdapterBody gf svc m req) := by
  intro p hp
  rw [refers]
  rw [genAdapterBody] at hp ⊢
  cases hk : methodKind m with
  | kindUnary =>
      simp only [hk, imports_bind, imports_qualifiedGoIdent, imports_P, ident, List.nil_append,
        List.append_nil, List.mem_append] at hp
      rcases hp with hp | hp <;> simp [hp, ident]
  | kindServerStream =>
      simp only [hk, imports_bind, imports_qualifiedGoIdent, imports_P, ident, List.nil_append,
        List.append_nil] at hp
      simp [hp, ident]
  | kindClientStream | kindBidi => simp [hk] at hp

theorem owes_genAdapterBody (m : Method) (req : Piece) :
    Owes Line.refs (genAdapterBody gf svc m req) (debts gf svc) := by
  intro p hp
  rcases List.mem_append.1 (io_of_adapterBody gf svc hp) with hp | hp
  · exact List.mem_append_right _ ((standing_subset gf svc).1 hp)
  · exact List.mem_append_left _ hp

theorem owes_qualifiedGoIdent {id : GoIdent} (h : ref gf id.goImportPath ⊆ debts gf svc) :
    Owes Line.refs (qualifiedGoIdent gf id) (debts gf svc) :=
  .of_imports (by rw [imports_qualifiedGoIdent]; exact h)

theorem owes_genRegistrar : Owes Line.refs (genRegistrar gf svc) (debts gf svc) := by
  obtain ⟨hwsrpc, hcontext, -⟩ := standing_subset gf svc
  refine (owes_qualifiedGoIdent gf svc hwsrpc).bind ?_
  refine (owes_qualifiedGoIdent gf svc hwsrpc).bind ?_
  refine (owes_qualifiedGoIdent gf svc hcontext).bind ?_
  refine (Owes.print _).bind ((Owes.print _).bind ?_)
  refine (Owes.each fun m hm => ?_).bind ((Owes.print _).bind (Owes.print _))
  refine (owes_qualifiedGoIdent gf svc (messages_subset gf svc hm).1).bind ?_
  exact (Owes.print _).bind ((owes_genAdapterBody gf svc m _).bind (Owes.print _))

theorem owes_genService : Owes Line.refs (genService gf svc) (debts gf svc) := by
  refine (Owes.print _).bind ((Owes.print _).bind ?_)
  refine (Owes.each fun m hm => owes_genHandlerMethod hm).bind ?_
  refine (Owes.print _).bind ((Owes.print _).bind ?_)
  refine (Owes.each fun m hm => ?_).bind (owes_genRegistrar gf svc)
  split
  · exact .of_imports (List.nil_subset _)
  · exact owes_genServerStreamWrapper hm

theorem owes_genClient : Owes Line.refs (genClient gf toLower svc) (debts gf svc) := by
  obtain ⟨hwsrpc, hcontext, -⟩ := standing_subset gf svc
  refine (owes_qualifiedGoIdent gf svc hcontext).bind ?_
  refine (owes_qualifiedGoIdent gf svc hwsrpc).bind ?_
  refine (owes_qualifiedGoIdent gf svc hwsrpc).bind ?_
  refine (Owes.print _).bind ((Owes.print _).bind ?_)
  refine (Owes.each fun m hm => owes_genClientIfaceMethod hm _ _).bind ?_
  -- the struct and the constructor
  iterate 11 refine (Owes.print _).bind ?_
  refine (Owes.each fun m hm => ?_).bind (Owes.each fun m hm => owes_genClientMethod hm _)
  split
  · exact .of_imports (List.nil_subset _)
  · exact owes_genClientStreamWrapper hm

/-! ## The bridge, which settles -/

/-- The shim refers to the packages of the runtime, whatever the methods of the service. -/
theorem standing_of_shim : standing gf ⊆ refers Line.refs (genGRPCStreamShim gf toLower svc) := by
  intro p hp
  simp only [standing, List.mem_append] at hp
  simp [refers, genGRPCStreamShim, errorfRef, ident]
  tauto

theorem owes_genGRPCStreamShim :
    Owes Line.refs (genGRPCStreamShim gf toLower svc) (debts gf svc) := by
  refine .of_imports ?_
  simp [genGRPCStreamShim, errorfRef, ident, standing_subset gf svc]

/-- A bridge method refers to gRPC and to its messages, of whatever kind it is. -/
theorem messages_of_bridgeMethod (bridge : String) (m : Method) :
    ref gf grpcImport ++ messages gf m ⊆
      refers Line.refs (genBridgeMethod gf toLower svc bridge m) := by
  intro p hp
  simp only [messages, List.mem_append] at hp
  rw [refers, genBridgeMethod]
  cases methodKind m <;> rcases hp with hp | hp | hp <;> simp [errorfRef, ident, hp]

theorem owes_genBridgeMethod (bridge : String) {m : Method} (hm : m ∈ svc.methods) :
    Owes Line.refs (genBridgeMethod gf toLower svc bridge m) (debts gf svc) := by
  have himports : (genBridgeMethod gf toLower svc bridge m).imports ⊆
      ref gf grpcImport ++ debts gf svc := by
    have hstanding := standing_subset gf svc
    have hmessages := messages_subset gf svc hm
    rw [genBridgeMethod]
    cases methodKind m <;>
      simp [errorfRef, ident, hstanding, hmessages, List.subset_append_of_subset_right]
  refine (Owes.of_imports himports).settle (List.append_subset.2 ⟨?_, ?_⟩)
  · have hrefers := messages_of_bridgeMethod gf toLower svc bridge m
    exact List.subset_append_of_subset_left _ (List.append_subset.1 hrefers).1
  · exact List.subset_append_right _ _

/-- **The bridge of a service settles all its debts.** -/
theorem debts_of_bridge : debts gf svc ⊆ refers Line.refs (genGRPCBridge gf toLower svc) := by
  -- behind three names and the lines of the struct and the constructor
  iterate 16 refine subset_refers_bind_right ?_
  rw [debts, List.append_subset]
  constructor
  · exact subset_refers_bind_left (standing_of_shim gf toLower svc)
  · refine subset_refers_bind_right fun p hp => ?_
    obtain ⟨m, hm, hp⟩ := List.mem_flatMap.1 hp
    have hrefers := messages_of_bridgeMethod gf toLower svc
      (unexport toLower svc.goName ++ "GRPCBridge") m
    exact refers_subset_each hm ((List.append_subset.1 hrefers).2 hp)

theorem owes_genGRPCBridge : Owes Line.refs (genGRPCBridge gf toLower svc) (debts gf svc) := by
  obtain ⟨hwsrpc, -⟩ := standing_subset gf svc
  iterate 3 refine (owes_qualifiedGoIdent gf svc hwsrpc).bind ?_
  iterate 13 refine (Owes.print _).bind ?_
  refine (owes_genGRPCStreamShim gf toLower svc).bind ?_
  exact Owes.each fun m hm => owes_genBridgeMethod gf toLower svc _ hm

end GeneratedFile

/-! ## Files -/

/-- A service owes nothing. -/
theorem owes_genFileService (toLower : Char → Char) (gf : GoImportPath) (svc : Service) :
    Owes Line.refs (genFileService toLower gf svc) [] := by
  have hall : Owes Line.refs (genFileService toLower gf svc) (debts gf svc) :=
    (owes_genService gf svc).bind
      ((owes_genClient gf toLower svc).bind (owes_genGRPCBridge gf toLower svc))
  refine hall.settle (List.subset_append_of_subset_left _ ?_)
  exact subset_refers_bind_right (subset_refers_bind_right (debts_of_bridge gf toLower svc))

theorem owes_genFile (toLower : Char → Char) (file : File) :
    Owes Line.refs (genFile toLower file) [] := by
  iterate 5 refine (Owes.print _).bind ?_
  exact Owes.each fun svc _ => owes_genFileService toLower file.goImportPath svc

/-- **Generated Go has no unused import.**  For all proto files, with any services of any
methods and messages of any packages, every package a generated file imports is referred
to in its code. -/
theorem imports_used (toLower : Char → Char) (files : List File) (g : GeneratedFile)
    (hg : g ∈ generate toLower files) : g.content.imports ⊆ refers Line.refs g.content := by
  obtain ⟨file, -, rfl⟩ := List.mem_map.1 hg
  exact (owes_genFile toLower file).covered

/-- A file with a service of one bidirectional method, whose response is a message of
another package, and a service without methods. -/
def mixedFile : File where
  goImportPath := "example.com/kind/v1"
  goPackageName := "kindv1"
  generatedFilenamePrefix := "kind"
  path := "kind/v1/kind.proto"
  services :=
    [{ goName := "KindService", fullName := "kind.v1.KindService"
       methods :=
        [{ goName := "Call", name := "Call", isStreamingClient := true, isStreamingServer := true
           input := ⟨"example.com/kind/v1", "Request"⟩
           output := ⟨"example.com/other", "Response"⟩ }] },
     { goName := "Empty", fullName := "kind.v1.Empty", methods := [] }]

/-- The other package is imported, and referred to. -/
theorem imports_used_mixedFile :
    "example.com/other" ∈ (genFile id mixedFile).imports ∧
      "example.com/other" ∈ refers Line.refs (genFile id mixedFile) := by
  have hmem : "example.com/other" ∈ (genFile id mixedFile).imports := by decide +kernel
  exact ⟨hmem, imports_used id [mixedFile] ⟨"kind_ws.pb.go", genFile id mixedFile⟩
    (by simp [generate, mixedFile]) hmem⟩

end WsProto.Generator
