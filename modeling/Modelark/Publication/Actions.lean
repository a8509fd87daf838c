import Modelark.Publication.Scopes

/-!
# Publication actions

What a publication intends to do outside the catalog is stored before it is done, bound to a phase of
its operation, and marked as verified after it was observed.
-/

namespace Modelark.Publication

open Library Execution
open Revision (Failure)
open Conversion (refused)

/-- The text of a key. -/
def textOf (record : Json) (key : String) : Option String :=
  match record.get? key with
  | some (.str text) => some text
  | _ => none

/-- A dictionary that is not empty. -/
def isFilled : Json → Bool
  | .obj fields => !fields.isEmpty
  | _ => false

def isDict : Json → Bool
  | .obj _ => true
  | _ => false

/-- An action as it is read. -/
structure ActionRecord where
  actionId : String
  operationId : String
  kind : ActionKind
  intent : Json
  intentDigest : String
  status : ActionStatus
  preparedRevision : Nat
  verifiedRevision : Option Nat
  receipt : Option Json
  receiptDigest : Option String

namespace Actions

variable {R : Type} (rules : Rules) (scope : Scope)

/-- `_operation`: the operation of the scope with its binding, its digest and the revision. -/
def operation (w : Owned R) : Except Failure (String × Json × String × Nat) := do
  scope.requireTransaction rules w.catalog
  let some operationId := w.operationId | .error (refused "PUBLICATION_ACTION_OPERATION_REQUIRED")
  let loaded ← scope.loadOwnedOperation rules w.catalog operationId
  return (operationId, loaded)

/-- `_load`. -/
def load (c : Catalog R) (operationId actionId operationDigest : String) : Except Failure ActionRecord := do
  let some row := c.records.actions.find (operationId, actionId)
    | .error (refused "PUBLICATION_ACTION_MISSING")
  let frozen ← unsealText rules.sha256 (some row.intent)
  require (holds frozen "version" (.int 1) && holds frozen "operation_digest" (.str operationDigest) &&
    holds frozen "operation_id" (.str operationId) && holds frozen "action_id" (.str actionId) &&
    holds frozen "kind" (.str row.kind.text)) (refused "PUBLICATION_ACTION_BINDING_CHANGED")
  let some intent := (frozen.get? "intent").filter isDict
    | .error (refused "PUBLICATION_ACTION_BINDING_CHANGED")
  let some prepared := row.preparedRevision | .error (refused "PUBLICATION_ACTION_REVISION_UNPROVEN")
  require (0 < prepared && prepared ≤ c.revision) (refused "PUBLICATION_ACTION_REVISION_UNPROVEN")
  let record (receipt : Option Json) : ActionRecord :=
    ⟨actionId, operationId, row.kind, intent, row.intent.digest, row.status, prepared,
      row.verifiedRevision, receipt, row.receipt.map SealedText.digest⟩
  match row.status with
  | .prepared => do
      require (row.verifiedRevision.isNone && row.receipt.isNone)
        (refused "PUBLICATION_ACTION_STATUS_UNPROVEN")
      return record none
  | .verified => do
      let receipt ← unsealText rules.sha256 row.receipt
      require (row.verifiedRevision.any (fun verified => prepared < verified && verified ≤ c.revision) &&
        holds receipt "version" (.int 1) && holds receipt "operation_digest" (.str operationDigest) &&
        holds receipt "action_id" (.str actionId) && holds receipt "intent_digest" (.str row.intent.digest) &&
        (receipt.get? "receipt").any isFilled) (refused "PUBLICATION_ACTION_RECEIPT_UNPROVEN")
      return record (some receipt)

/-- `_phase`. -/
def phase (c : Catalog R) (operationId : String) (expected binding : Json) : Except Failure Unit := do
  require (expected.hasKeys ["entity", "id", "phase"]) (refused "PUBLICATION_ACTION_PHASE_INVALID")
  let identifier := (textOf expected "id").getD ""
  if holds expected "entity" (.str "operation") then
    require (holds expected "id" (.str operationId) && holds expected "phase" (.str "PREPARED"))
      (refused "PUBLICATION_ACTION_PHASE_CHANGED")
  else if holds expected "entity" (.str "file") then do
    canonicalUuid identifier
    require ((Scope.batchFiles binding).any fun batch =>
      (Scope.children binding batch.1).any (same (.str identifier)))
      (refused "PUBLICATION_ACTION_PHASE_UNSELECTED")
    require ((c.records.files.find identifier).any fun row => row.operationId == operationId &&
      holds expected "phase" (.str row.phase.text)) (refused "PUBLICATION_ACTION_PHASE_CHANGED")
  else if holds expected "entity" (.str "batch") then do
    canonicalUuid identifier
    require ((Scope.batchFiles binding).any (·.1 == identifier))
      (refused "PUBLICATION_ACTION_PHASE_UNSELECTED")
    require ((c.records.batches.find (operationId, identifier)).any fun row =>
      holds expected "phase" (.str row.phase.text)) (refused "PUBLICATION_ACTION_PHASE_CHANGED")
  else .error (refused "PUBLICATION_ACTION_PHASE_INVALID")

/-- The command of an intent. -/
def command (spec : Json) : Except Failure Unit := do
  let arguments : List Json :=
    match spec.get? "argv" with
    | some (.arr arguments) => arguments
    | _ => []
  let isArgument : Json → Bool
    | .str text => !text.toList.contains '\x00'
    | _ => false
  require (spec.hasKeys ["argv", "stdin_digest"] && !arguments.isEmpty && arguments.all isArgument)
    (refused "PUBLICATION_ACTION_COMMAND_INVALID")
  requireDigest ((textOf spec "stdin_digest").getD "")

/-- The actions that have to be verified before, none of them named twice. -/
def dependencies (c : Catalog R) (operationId operationDigest : String) (after : Json) :
    Except Failure Unit := do
  let invalid : Failure := refused "PUBLICATION_ACTION_DEPENDENCIES_INVALID"
  let .arr entries := after | .error invalid
  let _ ← thread (fun (seen : List String) entry => do
    require (entry.hasKeys ["action_id", "receipt_digest"]) invalid
    let identifier := (textOf entry "action_id").getD ""
    let receiptDigest := (textOf entry "receipt_digest").getD ""
    canonicalUuid identifier
    requireDigest receiptDigest
    require (!seen.contains identifier) invalid
    let prior ← load rules c operationId identifier operationDigest
    require (prior.status == .verified && prior.receiptDigest == some receiptDigest)
      (refused "PUBLICATION_ACTION_DEPENDENCY_UNVERIFIED")
    return seen ++ [identifier]) [] entries
  return ()

/-- `_validate_intent`. -/
def validateIntent (c : Catalog R) (operationId : String) (value binding : Json) (checkPhase : Bool) :
    Except Failure Unit := do
  require (isDict value && ["expected_phase", "profile_digest", "root"].all fun key =>
    (value.get? key).isSome) (refused "PUBLICATION_ACTION_INTENT_INVALID")
  let profileDigest := (textOf value "profile_digest").getD ""
  requireDigest profileDigest
  let profiles : List (String × Json) :=
    match (binding.get? "before_state").bind (Json.get? "profiles") with
    | some (.obj profiles) => profiles
    | _ => []
  require (!profiles.isEmpty) (refused "PUBLICATION_ACTION_PROFILES_REQUIRED")
  let some (_, profile) := profiles.find? fun entry =>
    isDict entry.2 && digest rules.sha256 entry.2 == profileDigest
    | .error (refused "PUBLICATION_ACTION_PROFILE_UNSELECTED")
  let root := (value.get? "root").getD .null
  let named := ["root_identity", "mount_id", "annex_uuid"]
  require (root.hasKeys named && named.all fun name =>
    (root.get? name).any fun found => holds profile name found) (refused "PUBLICATION_ACTION_ROOT_CHANGED")
  match value.get? "command", value.get? "filesystem_plan" with
  | some spec, none => command spec
  | none, some plan => require (isFilled plan) (refused "PUBLICATION_ACTION_MUTATION_PLAN_INVALID")
  | _, _ => .error (refused "PUBLICATION_ACTION_MUTATION_PLAN_INVALID")
  dependencies rules c operationId (digest rules.sha256 binding) ((value.get? "after").getD (.arr []))
  if checkPhase then phase c operationId ((value.get? "expected_phase").getD .null) binding
  else return ()

/-- `_stamp`. -/
def stamp (w : Owned R) (operationId actionId sealHash : String) (status : ActionStatus)
    (revision : Nat) : Except Failure (Owned R) := do
  let marked ← w.deferRevisionOnce (.action operationId actionId sealHash status)
  marked.stampOperation operationId (some revision) false

/-- `prepare`. -/
def prepare (actionId : String) (kind : ActionKind) (intent : Json) (w : Owned R) :
    Except Failure (Owned R) := do
  let (operationId, binding, operationDigest, revision) ← operation rules scope w
  canonicalUuid actionId
  let frozen := Json.obj [("version", .int 1), ("operation_id", .str operationId),
    ("operation_digest", .str operationDigest), ("action_id", .str actionId), ("kind", .str kind.text),
    ("intent", intent.sortKeys)]
  let stored := sealText rules.sha256 frozen
  if w.catalog.records.actions.has (operationId, actionId) then do
    let record ← load rules w.catalog operationId actionId operationDigest
    require (record.intentDigest == stored.digest) (refused "PUBLICATION_ACTION_PREPARE_CONFLICT")
    validateIntent rules w.catalog operationId intent.sortKeys binding (record.status == .prepared)
    return { w with provenNoop := true }
  else do
    validateIntent rules w.catalog operationId intent.sortKeys binding true
    let some actions := w.catalog.records.actions.insert?
      ⟨operationId, actionId, kind, stored, .prepared, none, none, none⟩
      | .error (refused "PUBLICATION_ACTION_PREPARE_CONFLICT")
    stamp { w with catalog := w.catalog.setActions actions, provenNoop := false } operationId actionId
      stored.digest .prepared revision

/-- `verify`. -/
def verify (actionId intentDigest : String) (receipt : Json) (w : Owned R) : Except Failure (Owned R) := do
  let (operationId, binding, operationDigest, revision) ← operation rules scope w
  canonicalUuid actionId
  requireDigest intentDigest
  let record ← load rules w.catalog operationId actionId operationDigest
  require (record.intentDigest == intentDigest) (refused "PUBLICATION_ACTION_BINDING_CHANGED")
  require (isFilled receipt) (refused "PUBLICATION_ACTION_RECEIPT_INVALID")
  let frozen := Json.obj [("version", .int 1), ("operation_digest", .str operationDigest),
    ("action_id", .str actionId), ("intent_digest", .str intentDigest), ("receipt", receipt)]
  let stored := sealText rules.sha256 frozen
  validateIntent rules w.catalog operationId record.intent binding (record.status == .prepared)
  if record.status = .verified then do
    require (record.receiptDigest == some stored.digest) (refused "PUBLICATION_ACTION_VERIFY_CONFLICT")
    return { w with provenNoop := true }
  else do
    let actions ← updateOne w.catalog.records.actions "PUBLICATION_ACTION_VERIFY_CONFLICT"
      (fun row => row.key == (operationId, actionId) && row.status == .prepared &&
        row.intent.digest == intentDigest)
      (fun row => { row with status := .verified, receipt := some stored }) (fun _ => rfl)
    stamp { w with catalog := w.catalog.setActions actions, provenNoop := false } operationId actionId
      intentDigest .verified revision

/-- `verified_receipts`. -/
def verifiedReceipts (w : Owned R) : Except Failure (List Json) := do
  let (operationId, binding, operationDigest, _) ← operation rules scope w
  let identifiers := sortedSet ((w.catalog.records.actions.rows.filter
    (·.operationId == operationId)).map ActionRow.actionId)
  collect (fun identifier => do
    let record ← load rules w.catalog operationId identifier operationDigest
    require (record.status == .verified) (refused "PUBLICATION_ACTIONS_INCOMPLETE")
    validateIntent rules w.catalog operationId record.intent binding false
    return some (.obj [("action_id", .str record.actionId), ("kind", .str record.kind.text),
      ("intent_digest", .str record.intentDigest), ("receipt_digest", .ofText record.receiptDigest),
      ("verified_revision", .ofInt (record.verifiedRevision.map fun revision => (revision : Int)))]))
    identifiers

end Actions

end Modelark.Publication
