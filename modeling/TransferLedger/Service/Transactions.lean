import TransferLedger.Service.World

/-!
The transaction service. A transfer is carried out first and announced afterwards; that the
announcement fails does not matter to the caller. If the commit itself fails, the transfer is
recorded as failed and that is announced, both as far as possible. The service works with any
publisher; the one that runs publishes to the broker of the world.
-/
namespace TransferLedger
set_option autoImplicit false

/-- A way of publishing events on a broker, which says whether it was possible. -/
abbrev Publisher := Event → Broker → Bool × Broker

/-- Publishing to the broker itself. -/
def Publisher.direct : Publisher := fun event broker => broker.publishBestEffort event

namespace Transactions

/-- Announces a record, if the broker takes it. -/
def announce (r : Transaction) (broker : Broker) : Bool × Broker :=
  broker.publishBestEffort (.ofTransaction r)

/-- Records and announces that a plan was not carried out. -/
def recordFailureWith (publish : Publisher) (e : Engine) (now : Instant) (p : TransferPlan)
    (w : World) : World :=
  match Transfer.recordFailed e now p w.bank with
  | (.ok record, bank) =>
    { w with bank := bank, broker := (publish (.ofTransaction record) w.broker).2 }
  | (.error _, bank) => { w with bank := bank }

/-- Carries out a plan and announces how it ended. -/
def carryOutWith (publish : Publisher) (e : Engine) (now : Instant) (p : TransferPlan) (w : World) :
    Except (Halt TransferError) Transaction × World :=
  match Transfer.commit e now p w.bank with
  | (.ok record, bank) =>
    (.ok record, { w with bank := bank, broker := (publish (.ofTransaction record) w.broker).2 })
  | (.error (.refused cause), bank) =>
    let w := { w with bank := bank }
    (.error (.refused cause),
      if cause.code = .internal then recordFailureWith publish (e.after 7) now p w else w)
  | (.error (.overflow o), bank) => (.error (.overflow o), { w with bank := bank })

/-- Carries out a requested transfer under a new id. -/
def createWith (publish : Publisher) (e : Engine) (now : Instant) (newId : String)
    (r : TransferRequest) (w : World) : Except (Halt TransferError) Transaction × World :=
  match Transfer.prepare e newId r w.bank with
  | .error cause => (.error (.refused cause), w)
  | .ok p => carryOutWith publish (e.after 2) now p w

/-- Carries out a requested transfer and announces it on the broker. -/
def create (e : Engine) (now : Instant) (newId : String) (r : TransferRequest) (w : World) :
    Except (Halt TransferError) Transaction × World :=
  createWith .direct e now newId r w

/-- The committed transfers, oldest first. -/
def successful (e : Engine) (b : Bank) : Except TransferError (List Transaction) :=
  Transfer.withStatus e .success b

end Transactions

end TransferLedger
