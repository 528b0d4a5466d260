/-! The method signatures of `amqp/spec.py`: class id and method id. -/

namespace PyAmqp

abbrev MethodSig := Nat × Nat

instance (sig : MethodSig) (sigs : List MethodSig) : Decidable (sig ∈ sigs) :=
  inferInstance

namespace Spec

namespace Connection
def start : MethodSig := (10, 10)
def startOk : MethodSig := (10, 11)
def secure : MethodSig := (10, 20)
def secureOk : MethodSig := (10, 21)
def tune : MethodSig := (10, 30)
def tuneOk : MethodSig := (10, 31)
def «open» : MethodSig := (10, 40)
def openOk : MethodSig := (10, 41)
def close : MethodSig := (10, 50)
def closeOk : MethodSig := (10, 51)
def blocked : MethodSig := (10, 60)
def unblocked : MethodSig := (10, 61)
end Connection

namespace Channel
def «open» : MethodSig := (20, 10)
def openOk : MethodSig := (20, 11)
def flow : MethodSig := (20, 20)
def flowOk : MethodSig := (20, 21)
def close : MethodSig := (20, 40)
def closeOk : MethodSig := (20, 41)
end Channel

namespace Exchange
def declare : MethodSig := (40, 10)
def declareOk : MethodSig := (40, 11)
def delete : MethodSig := (40, 20)
def deleteOk : MethodSig := (40, 21)
def bind : MethodSig := (40, 30)
def bindOk : MethodSig := (40, 31)
def unbind : MethodSig := (40, 40)
def unbindOk : MethodSig := (40, 51)
end Exchange

namespace Queue
def declare : MethodSig := (50, 10)
def declareOk : MethodSig := (50, 11)
def bind : MethodSig := (50, 20)
def bindOk : MethodSig := (50, 21)
def purge : MethodSig := (50, 30)
def purgeOk : MethodSig := (50, 31)
def delete : MethodSig := (50, 40)
def deleteOk : MethodSig := (50, 41)
def unbind : MethodSig := (50, 50)
def unbindOk : MethodSig := (50, 51)
end Queue

namespace Basic
def classId : Nat := 60
def qos : MethodSig := (60, 10)
def qosOk : MethodSig := (60, 11)
def consume : MethodSig := (60, 20)
def consumeOk : MethodSig := (60, 21)
def cancel : MethodSig := (60, 30)
def cancelOk : MethodSig := (60, 31)
def publish : MethodSig := (60, 40)
def «return» : MethodSig := (60, 50)
def deliver : MethodSig := (60, 60)
def get : MethodSig := (60, 70)
def getOk : MethodSig := (60, 71)
def getEmpty : MethodSig := (60, 72)
def ack : MethodSig := (60, 80)
def nack : MethodSig := (60, 120)
def reject : MethodSig := (60, 90)
def recoverAsync : MethodSig := (60, 100)
def recover : MethodSig := (60, 110)
def recoverOk : MethodSig := (60, 111)
end Basic

namespace Confirm
def select : MethodSig := (85, 10)
def selectOk : MethodSig := (85, 11)
end Confirm

namespace Tx
def select : MethodSig := (90, 10)
def selectOk : MethodSig := (90, 11)
def commit : MethodSig := (90, 20)
def commitOk : MethodSig := (90, 21)
def rollback : MethodSig := (90, 30)
def rollbackOk : MethodSig := (90, 31)
end Tx

end Spec

end PyAmqp
