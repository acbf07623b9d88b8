import Mathlib.Data.List.Basic
import Mathlib.Data.List.Dedup

/-! # The sms_subsection table and the receive indexer

`SmsReceiveIndexer` is the record the receive path works on; a row of
`sms_subsection` is what `AddMsgToDB` stores of it and what
`ResultSetConvertToIndexer` reads back. The table is a row list in insertion
order whose predicates match exactly. Hex texts of PDUs are represented by the
octets they spell, so an empty text is an empty list.
-/

namespace TelephonySms.Receive

abbrev Pdu := List UInt8

/-- The table columns that name one concatenated message: `SENDER_NUMBER`,
`SMS_SUBSECTION_ID` and `SIZE`. -/
structure GroupKey where
  address : String
  refId : Nat
  msgCount : Nat
deriving DecidableEq, Repr

/-- Sixteen-bit counters are natural numbers: the receive path only compares
them and subtracts one. -/
structure SmsReceiveIndexer where
  pdu : Pdu
  timestamp : Int
  destPort : Int
  isCdma : Bool
  visibleMessageBody : String
  originatingAddress : String
  visibleAddress : String
  msgRefId : Nat
  msgSeqId : Nat
  msgCount : Nat
  dataBaseId : Nat
  rawUserData : Pdu
  rawWapPushUserData : Pdu
deriving DecidableEq, Repr

def textPortNum : Int := -1
def wapPushPort : Int := 2948

namespace SmsReceiveIndexer

def getIsText (i : SmsReceiveIndexer) : Bool := i.destPort = textPortNum

def getIsWapPushMsg (i : SmsReceiveIndexer) : Bool := i.destPort = wapPushPort

def isSingleMsg (i : SmsReceiveIndexer) : Bool := i.msgCount = 1

def groupKey (i : SmsReceiveIndexer) : GroupKey :=
  ⟨i.originatingAddress, i.msgRefId, i.msgCount⟩

def setDataBaseId (i : SmsReceiveIndexer) (id : Nat) : SmsReceiveIndexer :=
  { i with dataBaseId := id }

section SetDataBaseId

variable (i : SmsReceiveIndexer) (id : Nat)

@[simp] theorem setDataBaseId_dataBaseId : (i.setDataBaseId id).dataBaseId = id := rfl

@[simp] theorem setDataBaseId_groupKey : (i.setDataBaseId id).groupKey = i.groupKey := rfl

@[simp] theorem setDataBaseId_msgRefId : (i.setDataBaseId id).msgRefId = i.msgRefId := rfl

@[simp] theorem setDataBaseId_msgCount : (i.setDataBaseId id).msgCount = i.msgCount := rfl

@[simp] theorem setDataBaseId_originatingAddress :
    (i.setDataBaseId id).originatingAddress = i.originatingAddress := rfl

@[simp] theorem setDataBaseId_getIsWapPushMsg :
    (i.setDataBaseId id).getIsWapPushMsg = i.getIsWapPushMsg := rfl

@[simp] theorem setDataBaseId_isSingleMsg :
    (i.setDataBaseId id).isSingleMsg = i.isSingleMsg := rfl

end SetDataBaseId

end SmsReceiveIndexer

/-- One row of `sms_subsection`. -/
structure SmsSubsection where
  id : Nat
  slotId : Nat
  receiverNumber : String
  senderNumber : String
  startTime : Int
  endTime : Int
  rewPdu : Pdu
  isCdma : Bool
  destPort : Int
  smsSubsectionId : Nat
  size : Nat
  subsectionIndex : Nat
deriving DecidableEq, Repr

namespace SmsSubsection

def groupKey (r : SmsSubsection) : GroupKey := ⟨r.senderNumber, r.smsSubsectionId, r.size⟩

/-- The row without the key the database gave it. -/
def eraseId (r : SmsSubsection) : SmsSubsection := { r with id := 0 }

/-- `ResultSetConvertToIndexer`: `END_TIME` is read after `START_TIME` into the
same field. -/
def toIndexer (r : SmsSubsection) : SmsReceiveIndexer where
  pdu := r.rewPdu
  timestamp := r.endTime
  destPort := r.destPort
  isCdma := r.isCdma
  visibleMessageBody := ""
  originatingAddress := r.senderNumber
  visibleAddress := r.receiverNumber
  msgRefId := r.smsSubsectionId
  msgSeqId := r.subsectionIndex
  msgCount := r.size
  dataBaseId := r.id
  rawUserData := []
  rawWapPushUserData := []

/-- The bucket filled by `AddMsgToDB`, stored under the key `id`. -/
def ofIndexer (id slotId : Nat) (i : SmsReceiveIndexer) : SmsSubsection where
  id := id
  slotId := slotId
  receiverNumber := i.originatingAddress
  senderNumber := i.originatingAddress
  startTime := i.timestamp
  endTime := i.timestamp
  rewPdu := i.pdu
  isCdma := i.isCdma
  destPort := i.destPort
  smsSubsectionId := i.msgRefId
  size := i.msgCount
  subsectionIndex := i.msgSeqId

@[simp] theorem ofIndexer_groupKey (id slotId : Nat) (i : SmsReceiveIndexer) :
    (ofIndexer id slotId i).groupKey = i.groupKey := rfl

@[simp] theorem toIndexer_groupKey (r : SmsSubsection) : r.toIndexer.groupKey = r.groupKey := rfl

@[simp] theorem eraseId_groupKey (r : SmsSubsection) : r.eraseId.groupKey = r.groupKey := rfl

end SmsSubsection

/-- The table with the key its next insert returns. -/
structure SmsTable where
  rows : List SmsSubsection
  nextId : Nat
deriving DecidableEq, Repr

namespace SmsTable

/-- Keys start at one, as those of an `INTEGER PRIMARY KEY` column. -/
def empty : SmsTable := ⟨[], 1⟩

/-- The rows matching `SENDER_NUMBER = address AND SMS_SUBSECTION_ID = refId AND
SIZE = msgCount`; none of the three queries of the receive path names the slot. -/
def query (t : SmsTable) (key : GroupKey) : List SmsSubsection :=
  t.rows.filter (·.groupKey = key)

def delete (t : SmsTable) (key : GroupKey) : SmsTable :=
  { t with rows := t.rows.filter (·.groupKey ≠ key) }

def insert (t : SmsTable) (slotId : Nat) (i : SmsReceiveIndexer) : SmsTable :=
  ⟨t.rows ++ [.ofIndexer t.nextId slotId i], t.nextId + 1⟩

/-- The predicate of `DeleteExpireSmsFromDB`; `SIZE < 0` matches no row. -/
def isExpired (slotId : Nat) (deadlineTime : Int) (r : SmsSubsection) : Bool :=
  r.slotId = slotId && (r.startTime < deadlineTime || r.rewPdu = [])

def expired (t : SmsTable) (slotId : Nat) (deadlineTime : Int) : List SmsSubsection :=
  t.rows.filter (isExpired slotId deadlineTime)

def deleteExpired (t : SmsTable) (slotId : Nat) (deadlineTime : Int) : SmsTable :=
  { t with rows := t.rows.filter fun r => !isExpired slotId deadlineTime r }

@[simp] theorem delete_nextId (t : SmsTable) (key : GroupKey) :
    (t.delete key).nextId = t.nextId := rfl

@[simp] theorem insert_nextId (t : SmsTable) (slotId : Nat) (i : SmsReceiveIndexer) :
    (t.insert slotId i).nextId = t.nextId + 1 := rfl

@[simp] theorem deleteExpired_nextId (t : SmsTable) (slotId : Nat) (deadline : Int) :
    (t.deleteExpired slotId deadline).nextId = t.nextId := rfl

theorem query_insert_self (t : SmsTable) (slotId : Nat) (i : SmsReceiveIndexer) :
    (t.insert slotId i).query i.groupKey =
      t.query i.groupKey ++ [.ofIndexer t.nextId slotId i] := by
  simp [query, insert]

theorem query_insert_of_ne (t : SmsTable) (slotId : Nat) (i : SmsReceiveIndexer)
    {key : GroupKey} (h : i.groupKey ≠ key) : (t.insert slotId i).query key = t.query key := by
  simp [query, insert, h]

@[simp] theorem query_delete_self (t : SmsTable) (key : GroupKey) :
    (t.delete key).query key = [] := by
  simp [query, delete, List.filter_filter]

theorem query_delete_of_ne (t : SmsTable) {key other : GroupKey} (h : other ≠ key) :
    (t.delete key).query other = t.query other := by
  simp only [query, delete, List.filter_filter]
  apply List.filter_congr
  intro r _
  by_cases hr : r.groupKey = other
  · simp [hr, h]
  · simp [hr]

@[simp] theorem delete_delete_self (t : SmsTable) (key : GroupKey) :
    (t.delete key).delete key = t.delete key := by
  simp [delete, List.filter_filter]

/-- Deleting rows of other groups leaves a group alone. -/
theorem query_of_deleted {t t' : SmsTable} {p : SmsSubsection → Bool} {key : GroupKey}
    (hrows : t'.rows = t.rows.filter fun r => !p r)
    (h : ∀ r ∈ t.rows.filter p, r.groupKey ≠ key) : t'.query key = t.query key := by
  simp only [query, hrows, List.filter_filter]
  apply List.filter_congr
  intro r hr
  by_cases hp : p r = true
  · have hne := h r (List.mem_filter.mpr ⟨hr, hp⟩)
    simp [hne]
  · simp [hp]

theorem mem_query {t : SmsTable} {key : GroupKey} {r : SmsSubsection} :
    r ∈ t.query key ↔ r ∈ t.rows ∧ r.groupKey = key := by
  simp [query]

end SmsTable

end TelephonySms.Receive
