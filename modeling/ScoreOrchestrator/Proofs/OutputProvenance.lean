/-
Module: Proofs.OutputProvenance
Purpose: Where the values come from that a resolution substitutes: from the outputs of
  the claims, or from a fallback where the Secret of a claim could not be read.
-/
import ScoreOrchestrator.Proofs.PlanFreshness
import ScoreOrchestrator.Proofs.ResolvedEnv

namespace ScoreOrchestrator.Reconcile

open Foundation Program

variable {value resourceKey name : String} {outputs : GoMap String} {claims : List ResourceClaim}
  {availableOutputs : AvailableOutputs}

/-! ### Substitutions -/

/-- The resource key and output name that a match has captured. -/
def capturedReference (found : Match) : Option (String × String) :=
  match found.groups with
  | resourceKey :: outputKey :: _ => some (.ofList resourceKey, .ofList outputKey)
  | _ => none

/-- Whether a value has a reference in the long spelling. -/
def spelledLong (value : String) : Bool :=
  (resourceRefWithOutputsPattern.findAll value.toList).length ≠ 0

/-- The references of a value, in the order of their substitution. -/
def references (value : String) : List (String × String) :=
  ((if spelledLong value then resourceRefWithOutputsPattern else resourceRefPattern).findAll
    value.toList).filterMap capturedReference

/-- The text that stands for a reference in a value. -/
def placeholderFor (value resourceKey outputKey : String) : String :=
  if spelledLong value then
    "$\x7bresources." ++ resourceKey ++ ".outputs." ++ outputKey ++ "\x7d"
  else "$\x7bresources." ++ resourceKey ++ "." ++ outputKey ++ "\x7d"

/-- A reference with the value that is put in its place. -/
structure Substitution where
  resourceKey : String
  outputKey : String
  resolvedValue : String
deriving DecidableEq, Repr

def Substitution.reference (substitution : Substitution) : String × String :=
  (substitution.resourceKey, substitution.outputKey)

/-- A text after substitutions, given how references are spelled in it. -/
def substituted (templateVar : String → String → String) (text : String)
    (substitutions : List Substitution) : String :=
  substitutions.foldl (fun result substitution =>
    replaceAll result (templateVar substitution.resourceKey substitution.outputKey)
      substitution.resolvedValue) text

section

variable {availableOutputs : AvailableOutputs}

/-- The loop puts in, for one captured reference after the other, what it looks up. -/
theorem substitute_ok {templateVar : String → String → String} {found : List Match}
    {text result : String}
    (resolved : substitute availableOutputs templateVar found text = .ok result) :
    ∃ substitutions : List Substitution,
      substitutions.map Substitution.reference = found.filterMap capturedReference ∧
      (∀ substitution ∈ substitutions,
        lookupOutput availableOutputs substitution.resourceKey substitution.outputKey =
          .ok substitution.resolvedValue) ∧
      result = substituted templateVar text substitutions := by
  induction found generalizing text with
  | nil =>
    cases resolved
    exact ⟨[], rfl, nofun, rfl⟩
  | cons first rest ih =>
    unfold substitute at resolved
    split at resolved
    next resourceKey outputKey more captured =>
      split at resolved
      · cases resolved
      next resolvedValue looked =>
        obtain ⟨substitutions, listed, lookups, rfl⟩ := ih resolved
        refine ⟨⟨.ofList resourceKey, .ofList outputKey, resolvedValue⟩ :: substitutions,
          ?_, ?_, rfl⟩
        · simp [capturedReference, captured, listed, Substitution.reference]
        · rintro substitution (_ | ⟨_, later⟩)
          · exact looked
          · exact lookups substitution later
    next short =>
      obtain ⟨substitutions, listed, lookups, ends⟩ := ih resolved
      refine ⟨substitutions, ?_, lookups, ends⟩
      have uncaptured : capturedReference first = none := by
        unfold capturedReference
        split
        next captured => exact absurd captured (short _ _ _)
        · rfl
      rw [List.filterMap_cons_none uncaptured]
      exact listed

/-- A value that is resolved is the value with its references substituted. -/
theorem resolveValue_ok {result : String}
    (resolved : resolveValue value availableOutputs = .ok result) :
    ∃ substitutions : List Substitution,
      substitutions.map Substitution.reference = references value ∧
      (∀ substitution ∈ substitutions,
        lookupOutput availableOutputs substitution.resourceKey substitution.outputKey =
          .ok substitution.resolvedValue) ∧
      result = substituted (placeholderFor value) value substitutions := by
  unfold resolveValue at resolved
  by_cases none : (resourceRefWithOutputsPattern.findAll value.toList).length = 0
  · -- no long reference: the first loop does nothing
    have short : spelledLong value = false := by simp [spelledLong, none]
    have empty := List.eq_nil_of_length_eq_zero none
    rw [empty] at resolved
    obtain ⟨substitutions, listed, lookups, ends⟩ := substitute_ok resolved
    refine ⟨substitutions, ?_, lookups, ?_⟩
    · simpa [references, short] using listed
    · unfold placeholderFor
      simpa [short] using ends
  · have long : spelledLong value = true := by simp [spelledLong, none]
    simp only [none, if_false] at resolved
    cases first : substitute availableOutputs (fun resourceKey outputKey =>
        "$\x7bresources." ++ resourceKey ++ ".outputs." ++ outputKey ++ "\x7d")
        (resourceRefWithOutputsPattern.findAll value.toList) value with
    | error fault =>
      rw [first] at resolved
      cases resolved
    | ok text =>
      rw [first] at resolved
      cases resolved
      obtain ⟨substitutions, listed, lookups, ends⟩ := substitute_ok first
      refine ⟨substitutions, ?_, lookups, ?_⟩
      · simpa [references, long] using listed
      · unfold placeholderFor
        simpa [long] using ends

theorem lookupOutput_ok {outputKey : String}
    (looked : lookupOutput availableOutputs resourceKey outputKey = .ok value) :
    ∃ outputs, availableOutputs.get? resourceKey = some outputs ∧
      outputs.get? outputKey = some value := by
  unfold lookupOutput at looked
  split at looked
  · cases looked
  next outputs found =>
    split at looked
    · cases looked
    next held =>
      cases looked
      exact ⟨outputs, found, held⟩

end

/-! ### The outputs of one claim -/

/-- The claim whose outputs a resource key stands for: the last one with outputs. -/
def claimOf (claims : List ResourceClaim) (resourceKey : String) : Option ResourceClaim :=
  claims.reverse.find? fun claim =>
    claim.status.outputsAvailable && claim.spec.key = resourceKey

/-- The output of a name that the status of a claim holds itself. -/
def statusOutput (published : ResourceClaimOutputs) (name : String) : Option String :=
  if name = "uri" then published.uri
  else if name = "image" then published.image
  else if name = "cert" then published.cert.bind CertificateOutput.secretName
  else none

/-- The key of the Secret that a claim refers to. -/
def secretKey (claim : ResourceClaim) (secretRef : LocalObjectReference) : NamespacedName where
  ns := claim.metadata.ns
  name := secretRef.name

/-- The outputs that are made up for a postgres claim whose Secret cannot be read. -/
def madeUpOutputs (claim : ResourceClaim) : List (String × String) :=
  let name := claim.metadata.name
  [("username", "postgres-" ++ name), ("password", "password-" ++ name),
    ("host", name ++ "-postgres"), ("port", "5432"), ("database", "db_" ++ name),
    ("uri", "postgresql://" ++ ("postgres-" ++ name) ++ ":" ++ ("password-" ++ name) ++ "@" ++
      (name ++ "-postgres") ++ ":5432/" ++ ("db_" ++ name))]

def fallbackOutput (claim : ResourceClaim) (name : String) : Option String :=
  if claim.spec.type = "postgres" then (madeUpOutputs claim).lookup name else none

/-- The read of a Secret, with its reply. -/
def secretRead (key : NamespacedName) (reply : Except GoError Secret) (store : Store) :
    ApiEvent where
  answer := Secret
  request := .get .secret key
  reply := reply
  before := store
  after := store

/-- `value` is what a claim has published under a name: in its status, or in the Secret
that its status refers to. -/
def Published (store : Store) (claim : ResourceClaim) (name value : String) : Prop :=
  ∃ published, claim.status.outputs = some published ∧
    (statusOutput published name = some value ∨
      ∃ secretRef secret, published.secretRef = some secretRef ∧
        store.find? .secret (secretKey claim secretRef) = some secret ∧
        secret.spec.data.get? name = some value)

/-- The reference to a Secret in the outputs of a claim. -/
def secretRefOf (claim : ResourceClaim) : Option LocalObjectReference :=
  claim.status.outputs.bind ResourceClaimOutputs.secretRef

/-- The claims for which a Secret is read, in the order of the reads. -/
def secretClaims (claims : List ResourceClaim) : List ResourceClaim :=
  claims.filter fun claim => claim.status.outputsAvailable && (secretRefOf claim).isSome

/-- The read of the Secret for the claim that a resource key stands for. -/
def secretReadOf (claims : List ResourceClaim) (events : List ApiEvent) (resourceKey : String) :
    Option ApiEvent :=
  (((secretClaims claims).zip events).reverse.find? fun row =>
    row.1.spec.key = resourceKey).map Prod.snd

/-- `text` is made up for an output: the claim is of type postgres, the read of its Secret
has failed, and the name is one of the six. -/
def MadeUp (claims : List ResourceClaim) (events : List ApiEvent) (claim : ResourceClaim)
    (name text : String) : Prop :=
  claim.spec.type = "postgres" ∧ (name, text) ∈ madeUpOutputs claim ∧
    (secretRefOf claim).isSome ∧
    ∃ read ∈ secretReadOf claims events claim.spec.key, read.reply.toOption.isNone

/-- An output that could only be in the Secret of a claim, which no read has got. -/
def UnreadOutput (store : Store) (events : List ApiEvent) (claim : ResourceClaim) (name : String) :
    Prop :=
  ∃ published secretRef, claim.status.outputs = some published ∧
    published.secretRef = some secretRef ∧
    statusOutput published name = none ∧
    ∀ secret, secretRead (secretKey claim secretRef) (.ok secret) store ∉ events

/-- What the reference to a Secret adds to the outputs of a claim, by the read of it. -/
inductive SecretPart (store : Store) (claim : ResourceClaim) :
    Option LocalObjectReference → Option ApiEvent →
      (String → Option String) → Prop
  | unset {read : Option ApiEvent} :
      SecretPart store claim none read fun _ => none
  | read {secretRef : LocalObjectReference} {secret : Secret}
      (found : store.find? .secret (secretKey claim secretRef) = some secret) :
      SecretPart store claim (some secretRef)
        (some (secretRead (secretKey claim secretRef) (.ok secret) store)) secret.spec.data.get?
  | failed {secretRef : LocalObjectReference} {fault : GoError} :
      SecretPart store claim (some secretRef)
        (some (secretRead (secretKey claim secretRef) (.error fault) store))
        (fallbackOutput claim)

/-- The outputs collected for a claim.  An image or a certificate of the status goes over
what the Secret adds, and that over a URI of the status. -/
def Collected (store : Store) (claim : ResourceClaim) (read : Option ApiEvent)
    (outputs : GoMap String) : Prop :=
  ∃ published part, claim.status.outputs = some published ∧
    SecretPart store claim published.secretRef read part ∧
    ∀ name, outputs.get? name =
      if name = "image" ∨ name = "cert" then (statusOutput published name).or (part name)
      else (part name).or (statusOutput published name)

section

variable {store after : Store} {events more : List ApiEvent}
  {claim : ResourceClaim}

/-- What is unread in a run is unread in a part of it. -/
theorem UnreadOutput.mono (unread : UnreadOutput store more claim name) (within : events ⊆ more) :
    UnreadOutput store events claim name := by
  obtain ⟨published, secretRef, status, refers, unpublished, unreads⟩ := unread
  exact ⟨published, secretRef, status, refers, unpublished,
    fun secret got => unreads secret (within got)⟩

theorem UnreadOutput.of_status {published : ResourceClaimOutputs}
    (unread : UnreadOutput store events claim name)
    (status : claim.status.outputs = some published) :
    ∃ secretRef, published.secretRef = some secretRef ∧ statusOutput published name = none ∧
      ∀ secret, secretRead (secretKey claim secretRef) (.ok secret) store ∉ events := by
  obtain ⟨same, secretRef, isStatus, rest⟩ := unread
  cases status.symm.trans isStatus
  exact ⟨secretRef, rest⟩

theorem Collected.or {read : Option ApiEvent} (collected : Collected store claim read outputs)
    (other : Option ApiEvent) : Collected store claim (read.or other) outputs := by
  obtain ⟨published, part, status, given, lookups⟩ := collected
  refine ⟨published, part, status, ?_, lookups⟩
  generalize published.secretRef = secretRef at given
  cases given with
  | unset => exact .unset
  | read found => exact .read found
  | failed => exact .failed

theorem get?_setSome (outputs : GoMap String) (key : String) (value : Option String)
    (name : String) :
    (setSome outputs key value).get? name =
      if name = key then value.or (outputs.get? name) else outputs.get? name := by
  unfold setSome
  cases value with
  | none => simp
  | some text => simp [GoMap.get?_set]

/-- The fallback goes over the outputs that are there. -/
theorem get?_fallbackOutputs (claim : ResourceClaim) (outputs : GoMap String) (name : String) :
    (fallbackOutputs claim outputs).get? name =
      (fallbackOutput claim name).or (outputs.get? name) := by
  unfold fallbackOutput fallbackOutputs
  split
  · simp only [GoMap.get?_set, madeUpOutputs, List.lookup_cons]
    split_ifs <;> simp_all [beq_false_of_ne]
  · rfl

theorem fallbackOutput_eq_some {text : String} :
    fallbackOutput claim name = some text ↔
      claim.spec.type = "postgres" ∧ (name, text) ∈ madeUpOutputs claim := by
  unfold fallbackOutput
  split
  next postgres =>
    simp only [postgres, true_and]
    constructor
    · intro looked
      obtain ⟨early, late, split, _⟩ := List.lookup_eq_some_iff.mp looked
      simp [split]
    · simp only [madeUpOutputs, List.mem_cons, Prod.mk.injEq, List.not_mem_nil, or_false]
      rintro (⟨rfl, rfl⟩ | ⟨rfl, rfl⟩ | ⟨rfl, rfl⟩ | ⟨rfl, rfl⟩ | ⟨rfl, rfl⟩ | ⟨rfl, rfl⟩)
      all_goals rfl
  next other => simp [other]

/-- An image or a certificate is never made up. -/
theorem fallbackOutput_of_own (own : name = "image" ∨ name = "cert") :
    fallbackOutput claim name = none := by
  unfold fallbackOutput madeUpOutputs
  rcases own with rfl | rfl <;> simp

/-- The Secret's part goes over the outputs that are there. -/
theorem addSecretOutputs_ok {secretRef : Option LocalObjectReference} {start : GoMap String}
    (run : (addSecretOutputs claim start secretRef).Runs apiServer store events
      (.returned outputs) after) :
    after = store ∧ ∃ read part, events = read.toList ∧ read.isSome = secretRef.isSome ∧
      SecretPart store claim secretRef read part ∧
      ∀ name, outputs.get? name = (part name).or (start.get? name) := by
  cases secretRef with
  | none =>
    cases run
    exact ⟨rfl, none, _, rfl, rfl, .unset, fun _ => rfl⟩
  | some secretRef =>
    obtain ⟨reply, _, _, rfl, served, rest⟩ := run.of_call
    obtain rfl := apiServer_of_isRead rfl served
    cases reply with
    | error fault =>
      cases rest
      exact ⟨rfl, _, _, rfl, rfl, .failed, get?_fallbackOutputs claim start⟩
    | ok secret =>
      cases rest
      refine ⟨rfl, _, _, rfl, rfl, .read (apiServer_get_ok served).1, fun name => ?_⟩
      rw [GoMap.get?_foldl_set, GoMap.get?_ofList_rows]

theorem claimOutputs_ok {published : ResourceClaimOutputs}
    (status : claim.status.outputs = some published)
    (run : (claimOutputs claim published).Runs apiServer store events (.returned outputs) after) :
    after = store ∧ ∃ read, events = read.toList ∧
      read.isSome = (secretRefOf claim).isSome ∧ Collected store claim read outputs := by
  obtain ⟨added, early, late, middle, joined, head, tail⟩ := run.exists_of_bind
  obtain ⟨rfl, read, part, rfl, asked, given, lookups⟩ := addSecretOutputs_ok head
  cases tail
  rw [List.append_nil] at joined
  refine ⟨rfl, read, joined, ?_, published, part, status, given, fun name => ?_⟩
  · rw [asked, secretRefOf, status, Option.bind_some]
  have empty : GoMap.get? (Table.empty : GoMap String) name = none := rfl
  rw [get?_setSome, get?_setSome, lookups, get?_setSome, empty, Option.or_none]
  unfold statusOutput
  by_cases image : name = "image"
  · simp [image]
  · by_cases cert : name = "cert"
    · simp [cert]
    · simp [image, cert]

/-! ### The outputs of all claims -/

theorem claimOf_cons (claim : ResourceClaim) (rest : List ResourceClaim) (resourceKey : String) :
    claimOf (claim :: rest) resourceKey =
      (claimOf rest resourceKey).or
        (if claim.status.outputsAvailable && claim.spec.key = resourceKey then some claim
          else none) := by
  unfold claimOf
  rw [List.reverse_cons, List.find?_append, List.find?_singleton]

theorem key_of_claimOf (given : claimOf claims resourceKey = some claim) :
    claim.spec.key = resourceKey := by
  have chosen := List.find?_some given
  simp only [Bool.and_eq_true, decide_eq_true_eq] at chosen
  exact chosen.2

theorem secretReadOf_cons {rest : List ResourceClaim} {read : Option ApiEvent}
    (available : claim.status.outputsAvailable = true)
    (asked : read.isSome = (secretRefOf claim).isSome) :
    secretReadOf (claim :: rest) (read.toList ++ events) resourceKey =
      (secretReadOf rest events resourceKey).or
        (if claim.spec.key = resourceKey then read else none) := by
  unfold secretReadOf secretClaims
  cases read with
  | none => simp [available, ← asked]
  | some read =>
    rw [List.filter_cons_of_pos (by simp [available, ← asked]), Option.toList_some,
      List.singleton_append, List.zip_cons_cons, List.reverse_cons, List.find?_append,
      List.find?_singleton, Option.map_or]
    by_cases same : claim.spec.key = resourceKey
    · simp [same]
    · simp [same]

/-- No Secret is read for a key without a claim. -/
theorem secretReadOf_eq_none (noClaim : claimOf claims resourceKey = none) :
    secretReadOf claims events resourceKey = none := by
  unfold secretReadOf
  rw [Option.map_eq_none_iff, List.find?_eq_none]
  intro row member same
  have asked := List.mem_filter.mp (List.of_mem_zip (List.mem_reverse.mp member)).1
  have other := List.find?_eq_none.mp noClaim row.1 (List.mem_reverse.mpr asked.1)
  simp_all

theorem mem_of_secretReadOf {read : ApiEvent}
    (asked : secretReadOf claims events resourceKey = some read) : read ∈ events := by
  obtain ⟨row, found, rfl⟩ := Option.map_eq_some_iff.mp asked
  exact (List.of_mem_zip (List.mem_reverse.mp (List.mem_of_find?_eq_some found))).2

/-- What is collected under a resource key are the outputs of the claim it stands for. -/
theorem buildResolvedOutputsMap_ok {start : AvailableOutputs}
    (run : (buildResolvedOutputsMap claims start).Runs apiServer store events
      (.returned availableOutputs) after) :
    after = store ∧ ∀ resourceKey,
      match claimOf claims resourceKey with
      | none => availableOutputs.get? resourceKey = start.get? resourceKey
      | some claim => ∃ outputs, availableOutputs.get? resourceKey = some outputs ∧
          Collected store claim (secretReadOf claims events resourceKey) outputs := by
  induction claims generalizing start events with
  | nil =>
    cases run
    exact ⟨rfl, fun _ => rfl⟩
  | cons claim rest ih =>
    unfold buildResolvedOutputsMap at run
    split at run
    next available =>
      split at run
      · cases run
      next published status =>
        obtain ⟨outputs, early, late, middle, rfl, head, tail⟩ := run.exists_of_bind
        obtain ⟨rfl, read, rfl, asked, collected⟩ := claimOutputs_ok status head
        obtain ⟨unmoved, lookups⟩ := ih tail
        refine ⟨unmoved, fun resourceKey => ?_⟩
        have later := lookups resourceKey
        rw [claimOf_cons, secretReadOf_cons available asked]
        cases given : claimOf rest resourceKey with
        | some other =>
          rw [given] at later
          obtain ⟨held, found, gathered⟩ := later
          exact ⟨held, found, gathered.or _⟩
        | none =>
          rw [given] at later
          rw [GoMap.get?_set] at later
          rw [secretReadOf_eq_none given]
          by_cases same : resourceKey = claim.spec.key
          · rw [if_pos same] at later
            simp only [available, same, decide_true, Bool.and_self, if_true,
              Option.none_or]
            exact ⟨outputs, same ▸ later, collected⟩
          · rw [if_neg same] at later
            simpa [Ne.symm same] using later
    next unavailable =>
      obtain ⟨unmoved, lookups⟩ := ih run
      refine ⟨unmoved, fun resourceKey => ?_⟩
      have skipped : secretReadOf (claim :: rest) events resourceKey =
          secretReadOf rest events resourceKey := by
        simp [secretReadOf, secretClaims, unavailable]
      rw [claimOf_cons, skipped]
      simpa [unavailable] using lookups resourceKey

/-- After a read that failed, what is made up is what the fallback offers. -/
theorem madeUp_iff {claim : ResourceClaim} {read : ApiEvent} {text : String}
    (refers : (secretRefOf claim).isSome)
    (asked : secretReadOf claims events claim.spec.key = some read)
    (failed : read.reply.toOption.isNone) :
    MadeUp claims events claim name text ↔ fallbackOutput claim name = some text := by
  rw [fallbackOutput_eq_some]
  exact ⟨fun madeUp => ⟨madeUp.1, madeUp.2.1⟩,
    fun offered => ⟨offered.1, offered.2, refers, read, asked, failed⟩⟩

/-- A value looked up belongs to the claim of its resource key.  It is the made-up one
where there is one, and a published one otherwise. -/
theorem lookupOutput_published
    (run : (buildResolvedOutputsMap claims .empty).Runs apiServer store events
      (.returned availableOutputs) after)
    (looked : lookupOutput availableOutputs resourceKey name = .ok value) :
    ∃ claim, claimOf claims resourceKey = some claim ∧
      (Published store claim name value ∨ MadeUp claims events claim name value) ∧
      (∀ text, MadeUp claims events claim name text → value = text) ∧
      (UnreadOutput store events claim name → MadeUp claims events claim name value) := by
  obtain ⟨outputs, found, held⟩ := lookupOutput_ok looked
  have collected := (buildResolvedOutputsMap_ok run).2 resourceKey
  cases given : claimOf claims resourceKey with
  | none =>
    rw [given, found] at collected
    cases collected
  | some claim =>
    rw [given] at collected
    obtain ⟨gathered, same, published, part, status, secretPart, lookups⟩ := collected
    obtain rfl : outputs = gathered := Option.some.inj (found.symm.trans same)
    have refersTo : secretRefOf claim = published.secretRef := by
      rw [secretRefOf, status, Option.bind_some]
    rw [lookups] at held
    refine ⟨claim, rfl, ?_⟩
    rw [← key_of_claimOf given] at secretPart
    generalize asked : secretReadOf claims events claim.spec.key = read at secretPart
    generalize refers : published.secretRef = secretRef at secretPart refersTo
    cases secretPart with
    | unset =>
      have own : statusOutput published name = some value := by simpa using held
      refine ⟨.inl ⟨published, status, .inl own⟩, ?_, ?_⟩
      · rintro text ⟨_, _, refersSome, _⟩
        rw [refersTo] at refersSome
        cases refersSome
      · intro unread
        obtain ⟨secretRef, refersSome, _⟩ := unread.of_status status
        cases refers.symm.trans refersSome
    | @read secretRef secret stored =>
      refine ⟨.inl ⟨published, status, ?_⟩, ?_, ?_⟩
      · have either : statusOutput published name = some value ∨
            secret.spec.data.get? name = some value := by
          split at held
          · exact (Option.or_eq_some_iff.mp held).imp_right And.right
          · exact (Option.or_eq_some_iff.mp held).symm.imp_left And.right
        exact either.imp_right fun data => ⟨secretRef, secret, refers, stored, data⟩
      · rintro text ⟨_, _, _, read, isRead, failed⟩
        rw [asked] at isRead
        cases isRead
        cases failed
      · intro unread
        obtain ⟨secretRef, refersSome, _, noRead⟩ := unread.of_status status
        cases refers.symm.trans refersSome
        exact absurd (mem_of_secretReadOf asked) (noRead secret)
    | @failed secretRef fault =>
      have refersSome : (secretRefOf claim).isSome = true := refersTo ▸ rfl
      have either : (fallbackOutput claim name).or (statusOutput published name) = some value := by
        split at held
        next own =>
          rw [fallbackOutput_of_own own] at held ⊢
          rwa [Option.or_none] at held
        · exact held
      simp only [madeUp_iff refersSome asked rfl]
      refine ⟨?_, ?_, ?_⟩
      · exact (Option.or_eq_some_iff.mp either).symm.imp_left
          fun own => ⟨published, status, .inl own.2⟩
      · intro text offered
        rw [offered, Option.some_or] at either
        exact (Option.some.inj either).symm
      · intro unread
        obtain ⟨_, _, unpublished, _⟩ := unread.of_status status
        rwa [unpublished, Option.or_none] at either

end

/-! ### The resolved document -/

/-- The text of a container's variable in a resolved document. -/
def resolvedVariable (document : Json) (containerName envName : String) : Option Json := do
  let containers ← document.field? "containers"
  let container ← containers.field? containerName
  let env ← container.field? "env"
  env.field? envName

/-- The fields of an encoded Go map. -/
theorem field?_objectOf {fields : List (String × Json)} (distinct : (fields.map Prod.fst).Nodup)
    {value : Json} (member : (name, value) ∈ fields) :
    (objectOf fields).field? name = some value := by
  obtain ⟨entries, same, permuted⟩ := exists_sorted_objectOf distinct
  have found : entries.get? name = some value :=
    GoMap.get?_eq_some.mpr (permuted.mem_iff.mpr member)
  rw [same]
  exact found

/-- A variable of a Workload, with its value. -/
def HasVariable (workload : Workload) (containerName envName value : String) : Prop :=
  ∃ spec, workload.spec.containers.get? containerName = some spec ∧
    (variablesOf spec).get? envName = some value

/-- Each variable of a resolved document is its value with the references substituted. -/
theorem resolvedVariable_substituted {order : IterOrder} {workload : Workload} {document : Json}
    (resolved : resolvedDocument order workload availableOutputs = .ok document)
    {containerName envName : String} (has : HasVariable workload containerName envName value) :
    ∃ substitutions : List Substitution,
      substitutions.map Substitution.reference = references value ∧
      (∀ substitution ∈ substitutions,
        lookupOutput availableOutputs substitution.resourceKey substitution.outputKey =
          .ok substitution.resolvedValue) ∧
      resolvedVariable document containerName envName =
        some (.str (substituted (placeholderFor value) value substitutions)) := by
  obtain ⟨spec, isContainer, isVariable⟩ := has
  obtain ⟨containers, rfl, distinct, entries⟩ := resolvedDocument_ok resolved
  obtain ⟨encoded, listed, visited⟩ := entries containerName spec isContainer
  obtain ⟨_, ⟨unset, _⟩ | ⟨variables_, env, set, resolvedEnv, shape⟩⟩ := resolveContainer_ok visited
  · dsimp only at unset
    rw [variablesOf, unset] at isVariable
    cases isVariable
  · dsimp only at set shape
    subst shape
    rw [variablesOf, set] at isVariable
    obtain ⟨_, encodes⟩ := exists_mem_mapM resolvedEnv
      (IterOrder.mem_range.mpr (GoMap.get?_eq_some.mp isVariable))
    obtain ⟨text, resolves⟩ : ∃ text, resolveValue value availableOutputs = .ok text := by
      obtain ⟨_, visitedEntry⟩ := encodes
      split at visitedEntry
      next text resolves => exact ⟨text, resolves⟩
      · cases visitedEntry
    obtain ⟨substitutions, references, lookups, rfl⟩ := resolveValue_ok resolves
    refine ⟨substitutions, references, lookups, ?_⟩
    have inEnv := (mem_resolveEnv resolvedEnv).mpr ⟨value, _, isVariable, resolves, rfl⟩
    have containersField : (Json.obj [("containers", objectOf containers)]).field?
        "containers" = some (objectOf containers) := rfl
    have envField : (Json.obj [("env", objectOf env)]).field? "env" =
        some (objectOf env) := rfl
    simp only [resolvedVariable, Option.bind_eq_bind, containersField, Option.bind_some,
      field?_objectOf distinct listed, envField,
      field?_objectOf (resolveEnv_names resolvedEnv) inEnv]

/-- The Workload refers to an output of a resource in some variable. -/
def Refers (workload : Workload) (resourceKey name : String) : Prop :=
  ∃ containerName envName value, HasVariable workload containerName envName value ∧
    (resourceKey, name) ∈ references value

section

variable {order : IterOrder} {codec : JsonCodec} {workload : Workload}
  {claims : List ResourceClaim} {selectedBackend : SelectedBackend}
  {store final : Store} {events : List ApiEvent}

/-- An output that no read has got is not substituted, unless made up. -/
theorem resolveAllPlaceholders_unread {resolvedValues : RawExtension}
    (run : (resolveAllPlaceholders order codec workload claims).Runs apiServer store
      events (.returned (.ok resolvedValues)) final) {claim : ResourceClaim}
    (refers : Refers workload resourceKey name) (given : claimOf claims resourceKey = some claim)
    (unread : UnreadOutput store events claim name) :
    ∃ text, MadeUp claims events claim name text := by
  obtain ⟨availableOutputs, document, building, resolved, _⟩ := resolveAllPlaceholders_ok run
  obtain ⟨containerName, envName, value, has, referred⟩ := refers
  obtain ⟨substitutions, listed, lookups, _⟩ := resolvedVariable_substituted resolved has
  rw [← listed] at referred
  obtain ⟨substitution, member, same⟩ := List.mem_map.mp referred
  obtain ⟨rfl, rfl⟩ := Prod.mk.inj same
  obtain ⟨other, givenOther, _, _, madeUp⟩ :=
    lookupOutput_published building (lookups substitution member)
  rw [given] at givenOther
  cases givenOther
  exact ⟨_, madeUp unread⟩

/-- The run has only read. -/
def OnlyReads (store : Store) (events : List ApiEvent) (final : Store) : Prop :=
  final = store ∧ ∀ event ∈ events, event.request.isRead = true

theorem onlyReads_nil (store : Store) : OnlyReads store [] store := ⟨rfl, by simp⟩

theorem resolveAllPlaceholders_onlyReads {outcome : Outcome (Except GoError RawExtension)}
    (run : (resolveAllPlaceholders order codec workload claims).Runs apiServer store
      events outcome final) : OnlyReads store events final :=
  ⟨resolveAllPlaceholders_store run, run.request_of_makes
    (resolveAllPlaceholders_reads order codec workload claims)⟩

/-- An emission that gets further than to read has resolved the values. -/
theorem emit_resolves {write : WorkloadPlanSpec → Client (Except GoError Unit)}
    {outcome : Outcome (Except GoError Unit)} (run : (upsertWorkloadPlan.emit order codec workload
      claims selectedBackend write).Runs apiServer store events outcome final) :
    (∃ resolvedValues early, early ⊆ events ∧
      (resolveAllPlaceholders order codec workload claims).Runs apiServer store
        early (.returned (.ok resolvedValues)) store) ∨ OnlyReads store events final := by
  rcases run.bind_cases with
    ⟨resolved, early, late, middle, rfl, head, tail⟩ | ⟨_, _, head⟩ | ⟨_, head⟩
  · obtain ⟨rfl, reads⟩ := resolveAllPlaceholders_onlyReads head
    cases resolved with
    | ok resolvedValues =>
      exact .inl ⟨resolvedValues, early, List.subset_append_left early late, head⟩
    | error fault =>
      refine .inr ?_
      cases tail <;> exact ⟨rfl, by rwa [List.append_nil]⟩
  · exact .inr (resolveAllPlaceholders_onlyReads head)
  · exact .inr (resolveAllPlaceholders_onlyReads head)

/-- A read before it changes nothing of this. -/
theorem resolves_cons {first : ApiEvent} (reads : first.request.isRead = true)
    (rest : (∃ resolvedValues early, early ⊆ events ∧
        (resolveAllPlaceholders order codec workload claims).Runs apiServer store
          early (.returned (.ok resolvedValues)) store) ∨
      OnlyReads store events final) :
    (∃ resolvedValues early, early ⊆ first :: events ∧
      (resolveAllPlaceholders order codec workload claims).Runs apiServer store
        early (.returned (.ok resolvedValues)) store) ∨
    OnlyReads store (first :: events) final := by
  rcases rest with ⟨resolvedValues, early, within, resolves⟩ | ⟨same, others⟩
  · exact .inl ⟨resolvedValues, early, List.subset_cons_of_subset _ within, resolves⟩
  · refine .inr ⟨same, ?_⟩
    rintro event (_ | ⟨_, later⟩)
    · exact reads
    · exact others event later

theorem upsertWorkloadPlan_resolves {outcome : Outcome (Except GoError Unit)}
    (run : (upsertWorkloadPlan order codec workload claims selectedBackend).Runs apiServer store
      events outcome final) :
    (∃ resolvedValues early, early ⊆ events ∧
      (resolveAllPlaceholders order codec workload claims).Runs apiServer store
        early (.returned (.ok resolvedValues)) store) ∨ OnlyReads store events final := by
  unfold upsertWorkloadPlan at run
  split at run
  · cases run <;> exact .inr (onlyReads_nil store)
  next named =>
    rw [if_neg named] at run
    cases run with
    | interrupted => exact .inr (onlyReads_nil store)
    | @call _ _ _ _ _ _ reply later _ served rest =>
      obtain rfl := apiServer_of_isRead rfl served
      simp only [done_bind] at rest
      cases reply with
      | ok plan => exact resolves_cons rfl (emit_resolves rest)
      | error getErr =>
        dsimp only at rest
        split at rest
        · exact resolves_cons rfl (emit_resolves rest)
        · cases rest <;> exact resolves_cons rfl (.inr (onlyReads_nil _))

end

/-- A value that a resolution substitutes is published by the claim of its resource key
exactly if no text is made up for the output that is not published too.  And an upsert
whose Workload refers to an output that should be in a Secret which is not read only reads,
if the claim is not of type postgres or the output has another name than those made up. -/
theorem resolution_substitutes_published (order : IterOrder) (codec : JsonCodec)
    (workload : Workload) (claims : List ResourceClaim) (selectedBackend : SelectedBackend)
    (store final : Store) (events : List ApiEvent) :
    (∀ resolvedValues,
      (resolveAllPlaceholders order codec workload claims).Runs apiServer store
        events (.returned (.ok resolvedValues)) final →
      ∃ document, codec.unmarshal resolvedValues.raw = .ok document ∧
        ∀ containerName envName value, HasVariable workload containerName envName value →
          ∃ substitutions : List Substitution,
            substitutions.map Substitution.reference = references value ∧
            resolvedVariable document containerName envName =
              some (.str (substituted (placeholderFor value) value substitutions)) ∧
            ∀ substitution ∈ substitutions, ∃ claim,
              claimOf claims substitution.resourceKey = some claim ∧
              (Published store claim substitution.outputKey substitution.resolvedValue ↔
                ∀ text, MadeUp claims events claim substitution.outputKey text →
                  Published store claim substitution.outputKey text)) ∧
    (∀ outcome,
      (upsertWorkloadPlan order codec workload claims selectedBackend).Runs apiServer store events
        outcome final →
      ∀ resourceKey name claim, Refers workload resourceKey name →
        claimOf claims resourceKey = some claim →
        UnreadOutput store events claim name →
        (claim.spec.type ≠ "postgres" ∨ ∀ text, (name, text) ∉ madeUpOutputs claim) →
        OnlyReads store events final) := by
  constructor
  · intro resolvedValues run
    obtain ⟨availableOutputs, document, building, resolved, encoded⟩ :=
      resolveAllPlaceholders_ok run
    refine ⟨document, codec.unmarshal_marshal encoded, ?_⟩
    intro containerName envName value has
    obtain ⟨substitutions, listed, lookups, stored⟩ := resolvedVariable_substituted resolved has
    refine ⟨substitutions, listed, stored, fun substitution member => ?_⟩
    obtain ⟨claim, given, origin, only, _⟩ :=
      lookupOutput_published building (lookups substitution member)
    refine ⟨claim, given, fun published text madeUp => only text madeUp ▸ published, ?_⟩
    intro harmless
    exact origin.elim id (harmless _)
  · intro outcome run resourceKey name claim refers given unread noFallback
    rcases upsertWorkloadPlan_resolves run with
      ⟨resolvedValues, early, within, resolves⟩ | reads
    · obtain ⟨text, postgres, listed, _⟩ :=
        resolveAllPlaceholders_unread resolves refers given (unread.mono within)
      exact (noFallback.elim (absurd postgres) fun unlisted => unlisted text listed).elim
    · exact reads

/-! ### A Secret that cannot be read -/

/-- A Workload with the password of its database in a variable. -/
def databaseWorkload : Workload where
  metadata := { name := "web", ns := "default", uid := "u1", generation := 1 }
  spec :=
    { containers := .ofList
        [("main",
          { image := "nginx"
            variables_ := some (.ofList
              [("PASSWORD", "$\x7bresources.db.outputs.password\x7d")]) })] }
  status := default

/-- Its claim, of some type, with outputs in a Secret. -/
def databaseClaim (type : String) : ResourceClaim where
  metadata := { name := "web-db", ns := "default", uid := "u2" }
  spec := { workloadRef := ⟨"default", "web"⟩, key := "db", type }
  status :=
    { phase := .bound
      outputs := some { secretRef := some { name := "web-db-secret" } }
      outputsAvailable := true }

@[irreducible] def databaseStore : Store :=
  Store.empty.insert .secret
    { metadata := { name := "web-db-secret", ns := "default", uid := "u3" }
      spec := { type := "Opaque", data := .ofList [("password", "s3cr3t")] }
      status := () }

def timedOut : GoError where
  text := "timed out"

/-- An upsert for a claim of a type, whose calls fail as scripted. -/
def databaseUpsert (type : String) (script : List (Option GoError)) :
    List ApiEvent × Outcome (Except GoError Unit) × Store :=
  (upsertWorkloadPlan .entryOrder .text databaseWorkload [databaseClaim type]
    { runtimeClass := "kubernetes", template := default }).execute serve script databaseStore

def databaseResolution : List ApiEvent × Outcome (Except GoError RawExtension) × Store :=
  (resolveAllPlaceholders .entryOrder .text databaseWorkload
    [databaseClaim "postgres"]).execute serve [] databaseStore

/-- The resolved values hold a text for the password. -/
def givesPassword (password : String) (resolvedValues : RawExtension) : Bool :=
  match JsonCodec.text.unmarshal resolvedValues.raw with
  | .error _ => false
  | .ok document =>
    match resolvedVariable document "main" "PASSWORD" with
    | some (.str text) => text = password
    | _ => false

theorem exists_of_givesPassword {password : String} {resolvedValues : RawExtension}
    (gives : givesPassword password resolvedValues = true) :
    ∃ document, JsonCodec.text.unmarshal resolvedValues.raw = .ok document ∧
      resolvedVariable document "main" "PASSWORD" = some (.str password) := by
  unfold givesPassword at gives
  split at gives
  · cases gives
  next document decoded =>
    split at gives
    next text held => exact ⟨document, decoded, held.trans (by simpa using gives)⟩
    · cases gives

theorem databaseWorkload_has : HasVariable databaseWorkload "main" "PASSWORD"
    "$\x7bresources.db.outputs.password\x7d" :=
  ⟨_, rfl, rfl⟩

/-- With the Secret read, the password in it is substituted; without it, and without a
fallback, nothing is written. -/
theorem databaseResolution_substitutes_published :
    (∃ resolvedValue, Published databaseStore (databaseClaim "postgres") "password" resolvedValue) ∧
    OnlyReads databaseStore (databaseUpsert "redis" [none, some timedOut]).1
      (databaseUpsert "redis" [none, some timedOut]).2.2 := by
  have referred : references "$\x7bresources.db.outputs.password\x7d" =
      [("db", "password")] := by decide +kernel
  constructor
  · have allRead : databaseResolution.1.all
        (fun event => event.reply.toOption.isSome) = true := by decide +kernel
    have passes : databaseResolution.2.1.passes
        (fun returned => returned.toOption.isSome) = true := by decide +kernel
    obtain ⟨returned, isReturned, succeeds⟩ := Outcome.exists_of_passes passes
    have run := runs_execute serve (resolveAllPlaceholders .entryOrder .text
      databaseWorkload [databaseClaim "postgres"]) [] databaseStore
    cases returned with
    | error fault => cases succeeds
    | ok resolvedValues =>
      have ended : ((resolveAllPlaceholders .entryOrder .text databaseWorkload
          [databaseClaim "postgres"]).execute serve [] databaseStore).2.1 =
            .returned (.ok resolvedValues) := isReturned
      rw [ended] at run
      obtain ⟨document, _, resolves⟩ := (resolution_substitutes_published .entryOrder .text
        databaseWorkload [databaseClaim "postgres"] default databaseStore _ _).1
          resolvedValues run
      obtain ⟨substitutions, listed, _, origins⟩ :=
        resolves "main" "PASSWORD" _ databaseWorkload_has
      rw [referred] at listed
      obtain ⟨substitution, rest, rfl, same, _⟩ := List.map_eq_cons_iff.mp listed
      obtain ⟨isKey, isName⟩ := Prod.mk.inj same
      obtain ⟨claim, given, published⟩ := origins substitution (.head _)
      rw [isKey] at given
      obtain rfl : databaseClaim "postgres" = claim := Option.some.inj given
      rw [isName] at published
      refine ⟨substitution.resolvedValue, published.mpr ?_⟩
      rintro text ⟨_, _, _, read, isRead, failed⟩
      have replied := List.all_eq_true.mp allRead _ (mem_of_secretReadOf isRead)
      rw [← Option.not_isSome, replied] at failed
      cases failed
  · have unread : (databaseUpsert "redis" [none, some timedOut]).1.all (fun event =>
        event.request.kind ≠ .secret || !event.reply.toOption.isSome) = true := by
      decide +kernel
    refine (resolution_substitutes_published .entryOrder .text databaseWorkload
      [databaseClaim "redis"] { runtimeClass := "kubernetes", template := default }
      databaseStore _ _).2 _ (runs_execute serve _ _ databaseStore) "db" "password"
      (databaseClaim "redis") ⟨_, _, _, databaseWorkload_has, ?_⟩ rfl
      ⟨_, _, rfl, rfl, rfl, ?_⟩ (.inl (by decide))
    · rw [referred]
      exact .head _
    · intro secret got
      have refused := List.all_eq_true.mp unread _ got
      cases refused

/-- When the read of the Secret times out, the plan of a postgres claim is stored with a
password that nobody has published. -/
theorem databaseUpsert_makes_up_password :
    ∃ events final,
      (upsertWorkloadPlan .entryOrder .text databaseWorkload
        [databaseClaim "postgres"] { runtimeClass := "kubernetes", template := default }).Runs
        apiServer databaseStore events (.returned (.ok ())) final ∧
      (∃ plan resolvedValues document,
        final.find? .workloadPlan (planKey databaseWorkload) = some plan ∧
        plan.spec.resolvedValues = some resolvedValues ∧
        JsonCodec.text.unmarshal resolvedValues.raw = .ok document ∧
        resolvedVariable document "main" "PASSWORD" = some (.str "password-web-db")) ∧
      ¬ Published databaseStore (databaseClaim "postgres") "password" "password-web-db" := by
  have run := runs_execute serve (upsertWorkloadPlan .entryOrder .text
    databaseWorkload [databaseClaim "postgres"]
    { runtimeClass := "kubernetes", template := default }) [none, some timedOut]
    databaseStore
  have returned : (databaseUpsert "postgres" [none, some timedOut]).2.1 =
      .returned (.ok ()) := by decide +kernel
  unfold databaseUpsert at returned
  rw [returned] at run
  refine ⟨_, _, run, ?_, ?_⟩
  · have stored : ((databaseUpsert "postgres" [none, some timedOut]).2.2.find? .workloadPlan
        (planKey databaseWorkload)).any (fun plan => plan.spec.resolvedValues.any
          (givesPassword "password-web-db")) = true := by decide +kernel
    obtain ⟨plan, found, gives⟩ := (Option.any_eq_true _ _).mp stored
    obtain ⟨resolvedValues, isValues, given⟩ := (Option.any_eq_true _ _).mp gives
    obtain ⟨document, decoded, holds⟩ := exists_of_givesPassword given
    exact ⟨plan, resolvedValues, document, found, isValues, decoded, holds⟩
  · have held : ∀ secret ∈ databaseStore.find? .secret ⟨"default", "web-db-secret"⟩,
        secret.spec.data.get? "password" = some "s3cr3t" := by
      decide +kernel
    rintro ⟨published, status, own | ⟨secretRef, secret, refers, found, data⟩⟩
    · cases status
      cases own
    · cases status
      cases refers
      rw [held secret found] at data
      exact absurd (Option.some.inj data) (by decide)

end ScoreOrchestrator.Reconcile
