import TabCompletion.Completion.HashtableKey
import TabCompletion.Completion.Member
import TabCompletion.Proofs.Completion.Quiet

/-!
Inference asks the binder for the output types of a command and for nothing else. So two binders
that differ only in completers that fail or decline infer the same types.
-/

namespace TabCompletion

/-- The bindings of a command that such binders give. -/
theorem Binder.bind_quiet {left right : Option Binder}
    (same : left.map Binder.quiet = right.map Binder.quiet) (command : Node) :
    (left.bind (· command)).map Binding.quiet = (right.bind (· command)).map Binding.quiet := by
  have applied := congrArg (Option.bind · (· command)) same
  simp only [Option.bind_map, Function.comp_def, Binder.quiet] at applied
  simpa only [Option.map_bind, Function.comp_def] using applied

namespace Inference

variable {m : Inference} {binder : Option Binder}
  (same : m.binder.map Binder.quiet = binder.map Binder.quiet)

include same

theorem declaredOutput_binder (command : Node) :
    declaredOutput { m with binder } command = declaredOutput m command := by
  have bindings := Binder.bind_quiet same command
  simp only [declaredOutput]
  cases left : m.binder.bind (· command) with
  | none =>
      rw [left, Option.map_none, eq_comm, Option.map_eq_none_iff] at bindings
      rw [bindings]
  | some own =>
      rw [left, Option.map_some, eq_comm, Option.map_eq_some_iff] at bindings
      obtain ⟨other, isOther, alike⟩ := bindings
      have outputs : other.command.map (·.outputTypes) = own.command.map (·.outputTypes) := by
        have commands := congrArg (fun b => b.command.map (·.outputTypes)) alike
        simpa only [Binding.quiet, Option.map_map, Function.comp_def, CommandInfo.quiet] using commands
      rw [isOther]
      simp only [outputs]
      rfl

theorem ofCommand_binder (command : Node) :
    ofCommand { m with binder } command = ofCommand m command := by
  simp only [ofCommand, declaredOutput_binder same]
  rfl

omit same in
theorem resolve_binder (name : Text) (root : Option Node) :
    resolve { m with binder } name root = resolve m name root := rfl

omit same in
theorem ofReflectedMember_binder (typeName lowered : Text) (isStatic : Bool) (root : Option Node) :
    ofReflectedMember { m with binder } typeName lowered isStatic root =
      ofReflectedMember m typeName lowered isStatic root := rfl

omit same in
theorem ofClassMember_binder (lowered : Text) (isStatic : Bool) (root : Option Node)
    (unvisited : List Nat) (pending : List InferredType) :
    ofClassMember { m with binder } lowered isStatic root unvisited pending =
      ofClassMember m lowered isStatic root unvisited pending := by
  -- The induction follows the classes along their base types.
  fun_induction ofClassMember m lowered isStatic root unvisited pending with
  | case1 => rw [ofClassMember]
  | case2 unvisited definition rest isOpen declared member found typeName written =>
      rw [ofClassMember, dif_pos isOpen]
      simp only [declared] at found
      simp only [found, written, resolve_binder]
  | case3 unvisited definition rest isOpen declared member found written ih =>
      rw [ofClassMember, dif_pos isOpen]
      simp only [declared] at found
      simp only [found, written, ih]
  | case4 unvisited definition rest isOpen declared found bases ih =>
      rw [ofClassMember, dif_pos isOpen]
      simp only [declared] at found
      simp only [found, resolve_binder]
      exact ih
  | case5 unvisited definition rest isClosed ih =>
      rw [ofClassMember, dif_neg isClosed, ih]
  | case6 unvisited typeName rest found isEmpty ih =>
      rw [ofClassMember]
      simp only [ofReflectedMember_binder, ih]
      exact if_pos isEmpty
  | case7 unvisited typeName rest found isFound =>
      rw [ofClassMember]
      simp only [ofReflectedMember_binder]
      exact if_neg isFound
  | case8 unvisited nameSpace className rest ih => rw [ofClassMember, ih]

omit same in
theorem ofMember_binder (target : InferredType) (name : Text) (isStatic : Bool)
    (root : Option Node) :
    ofMember { m with binder } target name isStatic root = ofMember m target name isStatic root := by
  simp only [ofMember]
  cases target with
  | scriptClass definition => simp only [ofClassMember_binder]
  | reflected typeName => rfl
  | cim nameSpace className => rfl

omit same in
theorem ofAccess_binder (infer : Node → List InferredType) (node target name : Node)
    (isStatic : Bool) :
    ofAccess { m with binder } infer node target name isStatic =
      ofAccess m infer node target name isStatic := by
  simp only [ofAccess, ofMember_binder]
  rfl

theorem ofNode_binder (infer : Node → List InferredType) (node : Node) :
    ofNode { m with binder } infer node = ofNode m infer node := by
  obtain ⟨id, extent, form⟩ := node
  cases form with
  | command elements invocation redirections => exact ofCommand_binder same _
  | member target name isStatic => exact ofAccess_binder infer _ target name isStatic
  | invokeMember target name isStatic arguments => exact ofAccess_binder infer _ target name isStatic
  | constant value => cases value <;> rfl
  | _ => rfl

theorem inferWithin_binder (opened : List Nat) (node : Node) :
    inferWithin { m with binder } opened node = inferWithin m opened node := by
  -- The induction is on the nodes that are still open.
  fun_induction inferWithin m opened node with
  | case1 opened node isOpen ih =>
      rw [inferWithin, dif_pos isOpen, ofNode_binder same]
      congr 1
      funext part
      exact ih part
  | case2 opened node isClosed => rw [inferWithin, dif_neg isClosed]

theorem infer_binder (node : Node) : infer { m with binder } node = infer m node := by
  simp only [infer, inferWithin_binder same]

end Inference

namespace Completion

variable {m : Inference} {binder : Option Binder}

theorem memberSources_binder (root : Option Node) (unvisited : List Nat) (isOutermost : Bool)
    (pending : List InferredType) :
    memberSources { m with binder } root unvisited isOutermost pending =
      memberSources m root unvisited isOutermost pending := by
  fun_induction memberSources m root unvisited isOutermost pending with
  | case1 => rw [memberSources]
  | case2 unvisited isOutermost definition rest isOpen names others isEmpty ih =>
      rw [memberSources, dif_pos isOpen]
      exact (if_pos isEmpty).trans (congrArg _ (congrArg _ ih))
  | case3 unvisited isOutermost definition rest isOpen names others isFound ih =>
      rw [memberSources, dif_pos isOpen]
      exact (if_neg isFound).trans (congrArg _ ih)
  | case4 unvisited isOutermost definition rest isClosed ih =>
      rw [memberSources, dif_neg isClosed, ih]
  | case5 unvisited isOutermost other rest isForeign ih =>
      rw [memberSources, ih]
      exact isForeign

theorem settableProperties_binder (unvisited : List Nat) (pending : List InferredType) :
    settableProperties { m with binder } unvisited pending =
      settableProperties m unvisited pending := by
  fun_induction settableProperties m unvisited pending with
  | case1 => rw [settableProperties]
  | case2 unvisited typeName rest ih => rw [settableProperties, ih]
  | case3 unvisited nameSpace className rest ih => rw [settableProperties, ih]
  | case4 unvisited definition rest isOpen bases ih =>
      rw [settableProperties, dif_pos isOpen]
      exact congrArg _ ih
  | case5 unvisited definition rest isClosed ih =>
      rw [settableProperties, dif_neg isClosed, ih]

theorem keyCandidates_binder (root : Option Node) (hashtable : Node) :
    keyCandidates { m with binder } root hashtable = keyCandidates m root hashtable := by
  have keys : typeKeys { m with binder } = typeKeys m := by
    funext type
    simp only [typeKeys, settableProperties_binder]
  have slots : slotKeys { m with binder } = slotKeys m := by
    funext root slot
    simp only [slotKeys, keys]
    rfl
  simp only [keyCandidates, keys, slots]
  rfl

end Completion

end TabCompletion
