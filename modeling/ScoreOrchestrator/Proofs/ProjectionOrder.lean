/-
Module: Proofs.ProjectionOrder
Purpose: The document that a plan carries, as a function of the outputs that were
  collected, and that the iteration order of maps does not matter for it.
-/
import ScoreOrchestrator.Proofs.ResolvedEnv

namespace ScoreOrchestrator.Reconcile

open Foundation Program

/-! ### The order of maps -/

/-- The encoder sorts the keys of a map. -/
theorem objectOf_perm {fields others : List (String × Json)} (permuted : fields.Perm others)
    (distinct : (fields.map Prod.fst).Nodup) : objectOf fields = objectOf others := by
  unfold objectOf
  congr 1
  let precedes : String × Json → String × Json → Prop := fun first second => first.1 ≤ second.1
  have total : Std.Total precedes := ⟨fun first second => String.le_total first.1 second.1⟩
  have trans : IsTrans _ precedes := ⟨fun _ _ _ => String.le_trans⟩
  have sorted := (List.perm_insertionSort precedes fields).trans
    (permuted.trans (List.perm_insertionSort precedes others).symm)
  refine List.Perm.eq_of_pairwise ?_ (List.pairwise_insertionSort precedes _)
    (List.pairwise_insertionSort precedes _) sorted
  intro first second inFirst inSecond before after
  -- equal keys belong to one field
  have firstMember := (List.perm_insertionSort precedes fields).mem_iff.mp inFirst
  have secondMember := permuted.mem_iff.mpr
    ((List.perm_insertionSort precedes others).mem_iff.mp inSecond)
  exact List.inj_on_of_nodup_map distinct firstMember secondMember (String.le_antisymm before after)

section

variable (order : IterOrder) {other : IterOrder} {outputs : AvailableOutputs}

theorem range_perm {V : Type} (other : IterOrder) (entries : GoMap V) :
    (order.range entries).Perm (other.range entries) :=
  (order.perm entries.rows).trans (other.perm entries.rows).symm

theorem resolveEnv_order {containerName : String} {variables_ : GoMap String}
    {env : List (String × Json)}
    (resolved : resolveEnv other outputs containerName variables_ = .ok env) :
    ∃ reordered, resolveEnv order outputs containerName variables_ = .ok reordered ∧
      objectOf reordered = objectOf env := by
  obtain ⟨reordered, visited, permuted⟩ :=
    mapM_ok_of_perm (range_perm order other variables_) resolved
  exact ⟨reordered, visited, objectOf_perm permuted (resolveEnv_names visited)⟩

theorem resolveContainer_order {entry : String × ContainerSpec} {result : String × Json}
    (resolved : resolveContainer other outputs entry = .ok result) :
    resolveContainer order outputs entry = .ok result := by
  obtain ⟨name, ⟨unset, shape⟩ | ⟨variables_, env, set, visited, shape⟩⟩ :=
    resolveContainer_ok resolved
  · simp only [resolveContainer, unset]
    rw [← name, ← shape]
  · obtain ⟨reordered, revisited, same⟩ := resolveEnv_order order visited
    have encoded : result = (entry.1, .obj [("env", objectOf reordered)]) := by
      rw [same, ← name, ← shape]
    simp only [resolveContainer, set, revisited]
    exact congrArg Except.ok encoded.symm

/-- The document is the same in every order. -/
theorem resolvedDocument_order {workload : Workload} {document : Json}
    (resolved : resolvedDocument other workload outputs = .ok document) :
    resolvedDocument order workload outputs = .ok document := by
  unfold resolvedDocument at resolved ⊢
  cases visited : (other.range workload.spec.containers).mapM
      (resolveContainer other outputs) with
  | error fault =>
    rw [visited] at resolved
    cases resolved
  | ok containers =>
    rw [visited] at resolved
    cases resolved
    obtain ⟨reordered, revisited, permuted⟩ :=
      mapM_ok_of_perm (range_perm order other workload.spec.containers) visited
    have names : reordered.map Prod.fst = (order.range workload.spec.containers).map Prod.fst :=
      map_eq_of_forall₂ (fun _ _ visited => (resolveContainer_ok visited).1)
        (forall₂_of_mapM_ok revisited)
    have inOrder : (order.range workload.spec.containers).mapM
        (resolveContainer order outputs) = .ok reordered :=
      mapM_ok_of_forall₂ ((forall₂_of_mapM_ok revisited).imp fun _ _ =>
        resolveContainer_order order)
    rw [← objectOf_perm permuted (names ▸ order.nodup_range _), inOrder]
    rfl

end

/-! ### The projection -/

/-- What `UpsertWorkloadPlan` makes of the outputs it has collected: the values for the
plan, or the error with which it gives up. -/
def projected (order : IterOrder) (codec : JsonCodec) (workload : Workload)
    (outputs : AvailableOutputs) : Except GoError RawExtension :=
  match resolvedDocument order workload outputs with
  | .error fault => .error (fault.wrap "failed to resolve placeholders: ")
  | .ok document =>
    match codec.marshal document with
    | .error text =>
      .error (GoError.wrap "failed to resolve placeholders: "
        { text := "failed to marshal resolved values: " ++ text })
    | .ok raw =>
      match checkResolved codec { raw } with
      | .error fault => .error fault
      | .ok () => .ok { raw }

/-- Whether there is a projection does not depend on the order of maps, nor does the
projection. -/
theorem projected_order (order : IterOrder) {other : IterOrder} {codec : JsonCodec}
    {workload : Workload} {outputs : AvailableOutputs} {values : RawExtension}
    (succeeds : projected other codec workload outputs = .ok values) :
    projected order codec workload outputs = .ok values := by
  unfold projected at succeeds ⊢
  cases resolved : resolvedDocument other workload outputs with
  | error fault =>
    rw [resolved] at succeeds
    cases succeeds
  | ok document =>
    rw [resolved] at succeeds
    rw [resolvedDocument_order order resolved]
    exact succeeds

/-- The spec of the Workload decides. -/
theorem projected_congr (order : IterOrder) (codec : JsonCodec) {first second : Workload}
    (spec : first.spec = second.spec) (outputs : AvailableOutputs) :
    projected order codec first outputs =
      projected order codec second outputs := by
  unfold projected resolvedDocument
  rw [spec]

/-- An emission collects the outputs, projects them and writes. -/
theorem emit_eq_projected (order : IterOrder) (codec : JsonCodec) (workload : Workload)
    (claims : List ResourceClaim) (selectedBackend : SelectedBackend)
    (write : WorkloadPlanSpec → Client (Except GoError Unit)) :
    upsertWorkloadPlan.emit order codec workload claims selectedBackend write =
      (buildResolvedOutputsMap claims .empty).bind fun outputs =>
        match projected order codec workload outputs with
        | .error fault => .done (.error fault)
        | .ok values => write (desiredPlanSpec workload claims selectedBackend values) := by
  unfold upsertWorkloadPlan.emit resolveAllPlaceholders projected
  simp only [Program.bind_eq, Program.bind_assoc]
  congr 1
  funext outputs
  cases resolvedDocument order workload outputs with
  | error fault => rfl
  | ok document =>
    dsimp only
    cases codec.marshal document with
    | error text => rfl
    | ok raw =>
      simp only [pure_eq, done_bind]
      cases checkResolved codec { raw } <;> rfl

end ScoreOrchestrator.Reconcile
