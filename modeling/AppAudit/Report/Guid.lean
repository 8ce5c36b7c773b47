/-
Identifiers of runs: sixteen random bytes as hexadecimal digits in five groups, marked as random in the way that
identifiers of version 4 are.
-/
import AppAudit.Text.Quoted

namespace AppAudit.Guid

/-- the bytes with version and variant marked -/
def mark (bytes : List UInt8) : List UInt8 :=
  bytes.mapIdx fun i b => if i = 6 then b % 16 + 0x40 else if i = 8 then b % 64 + 0x80 else b

/-- the identifier from sixteen bytes -/
def ofBytes (bytes : List UInt8) : String :=
  let digits := (mark bytes).flatMap fun (b : UInt8) => hexDigits 2 b.toNat
  let group (start size : Nat) := String.ofList ((digits.drop start).take size)
  "-".intercalate [group 0 8, group 8 4, group 12 4, group 16 4, group 20 12]

end AppAudit.Guid
