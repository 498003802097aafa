import Declaragent.Audit.ChainVerify

/-!
# Audit — exporters

An exporter pushes a batch of audit rows to a vendor and says how many of the leading rows it
accepted.
-/

namespace Declaragent.Audit
open JsonText

structure AuditExportEntry where
  seq : Nat
  ts : Json
  kind : Json
  tenantId : Json
  record : TenantAuditRecord
  recordHash : String
  prevHash : String

/-- `raw[key] ?? fallback`. -/
def fieldOr (record : TenantAuditRecord) (key : String) (fallback : Json) : Json :=
  match record.field key with
  | none | some .null => fallback
  | some value => value

def toExportEntry (stored : StoredAuditEntry) : AuditExportEntry where
  seq := stored.seq
  ts := fieldOr stored.record "ts" (.num .zero)
  kind := fieldOr stored.record "kind" (.str "unknown")
  tenantId := fieldOr stored.record "tenantId"
    (fieldOr stored.record "sourceTenantId" (.str "_system"))
  record := stored.record
  recordHash := stored.recordHash
  prevHash := stored.prevHash

/-- How a push ends.  The text of an error is only logged. -/
inductive PushOutcome where
  | ok (acked : Int)
  | failed (retryable : Bool)
  | threw
  deriving DecidableEq

end Declaragent.Audit
