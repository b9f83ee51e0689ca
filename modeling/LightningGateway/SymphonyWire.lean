import LightningGateway.LndWire
import LightningGateway.OutboxRows

/-!
# The spend authorization handshake with Symphony

`AuthorizeSpend` gates every spend before LND is called. Requests carry an
account, an amount in satoshis and an idempotency key; a transport failure is
told apart from a decision, and neither is ever an approval.
-/
namespace LightningGateway.SymphonyWire
open Primitives PaymentAggregate OutboxRows LndWire

inductive SymphonyAuthorizeStatus where
  | approved
  | declined
deriving DecidableEq, Repr

inductive DeclineReason where
  | insufficientFunds
  | accountFrozen
  | amountExceedsLimit
  | other (detail : String)
deriving DecidableEq, Repr

/-- `{:?}` of the reason. -/
def DeclineReason.debug : DeclineReason → String
  | .insufficientFunds => "InsufficientFunds"
  | .accountFrozen => "AccountFrozen"
  | .amountExceedsLimit => "AmountExceedsLimit"
  | .other detail => "Other(" ++ debugStr detail ++ ")"

inductive SymphonyError where
  | transport (text : String)
  | status (status : Status)
  | declined (reason : DeclineReason)
  | config (detail : String)
deriving DecidableEq, Repr

def SymphonyError.display : SymphonyError → String
  | .transport text => "symphony gRPC transport error: " ++ text
  | .status s => "symphony gRPC status: " ++ s.text
  | .declined reason => "symphony declined: " ++ reason.debug
  | .config detail => "symphony client config error: " ++ detail

inductive AccountKind where
  | walletLiability
  | cardCollateral
deriving DecidableEq, Repr

structure AccountRef where
  kind : AccountKind
  id : String
deriving DecidableEq, Repr

structure SymphonyAuthorizeRequest where
  correlationId : String
  account : AccountRef
  satAmount : UInt64
  idempotencyKey : String
  gatewayMetadata : Json

structure SymphonyAuthorizeResponse where
  status : SymphonyAuthorizeStatus
  authorizationId : Option String
  declineReason : Option DeclineReason
deriving DecidableEq, Repr

/-- `proto::SpendAuthorizeRequest`; the metadata object travels as its text. -/
structure WireAuthorizeRequest where
  correlationId : String
  account : AccountRef
  satAmount : ℤ
  idempotencyKey : String
  gatewayMetadata : Json

/-- `proto::SpendAuthorizeResponse`, the fields the client reads. -/
structure WireAuthorizeResponse where
  authorized : Bool
  authorizationId : String
  declineReason : ℤ
  declineMessage : String
deriving DecidableEq, Repr

/-- A transport or availability failure rather than a decision. -/
def isAuthorizeUnavailable : SymphonyError → Bool
  | .transport _ => true
  | .status status =>
      status.code = Status.unavailable ∨ status.code = Status.unknown ∨
        status.code = Status.deadlineExceeded ∨ status.code = Status.cancelled ∨
        status.code = Status.unimplemented
  | .declined _ => false
  | .config _ => false

def mapDeclineReason (code : ℤ) (message : String) : DeclineReason :=
  if code = 1 then .insufficientFunds
  else if code = 3 then .accountFrozen
  else if code = 4 then .amountExceedsLimit
  else if code = 2 then .other (detail "account not found")
  else if code = 5 then .other (detail "symphony internal error")
  else .other (detail "unspecified decline")
where
  detail (fallback : String) : String := if message.isEmpty then fallback else message

def toWire (request : SymphonyAuthorizeRequest) : WireAuthorizeRequest :=
  ⟨request.correlationId, request.account, asI64 request.satAmount, request.idempotencyKey,
    request.gatewayMetadata⟩

/-- What the gateway makes of the answer to `AuthorizeSpend`. -/
def readAuthorize :
    Except Status WireAuthorizeResponse → Except SymphonyError SymphonyAuthorizeResponse
  | .error status => .error (.status status)
  | .ok resp =>
      let authorizationId := if resp.authorizationId.isEmpty then none else some resp.authorizationId
      if resp.authorized then .ok ⟨.approved, authorizationId, none⟩
      else .ok ⟨.declined, authorizationId,
        some (mapDeclineReason resp.declineReason resp.declineMessage)⟩

/-- Only an explicit approval on the wire is an approval. -/
theorem readAuthorize_approved {r : Except Status WireAuthorizeResponse}
    {resp : SymphonyAuthorizeResponse} (h : readAuthorize r = .ok resp)
    (ha : resp.status = .approved) : ∃ wire, r = .ok wire ∧ wire.authorized = true := by
  cases r with
  | error status => cases h
  | ok wire =>
      by_cases hw : wire.authorized = true
      · exact ⟨wire, rfl, hw⟩
      · simp only [readAuthorize, hw] at h
        cases h
        cases ha

/-- The failure recorded when the authorization call errs. -/
def authorizeErrorReason (e : SymphonyError) : FailureReason :=
  if isAuthorizeUnavailable e then .other ("Symphony service unavailable: " ++ e.display)
  else .other ("Symphony error: " ++ e.display)

/-- The failure recorded when Symphony declines. -/
def declineFailureReason : Option DeclineReason → FailureReason
  | some .insufficientFunds => .insufficientBalance
  | some other => .other ("Symphony declined: " ++ other.debug)
  | none => .other "Symphony declined: no reason"

end LightningGateway.SymphonyWire
