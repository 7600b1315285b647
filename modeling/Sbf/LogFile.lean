import Mathlib.Algebra.Group.Nat.Defs
import Sbf.Octets
import Sbf.TotalSteps

set_option autoImplicit false

/-! The ring of a log file, with every store of a writer as a step of its own. -/

namespace Sbf

open Octets

/-- `SBF_LOG_FILE_ENTRIES` -/
def logFileEntries : Nat := 200000

structure Timeval where
  tv_sec : Int
  tv_usec : Int
deriving DecidableEq, Repr

/-- What a call of `sbfLog_vlog` stores, with the strings up to their terminators. -/
structure LogContent where
  mTime : Timeval
  mLevel : UInt8
  mPrefix : Bytes
  mMessage : Bytes
deriving DecidableEq, Repr

/-- The strings are cut to `mPrefix[24]` and `mMessage[512]`. -/
def LogContent.fit (content : LogContent) : LogContent :=
  { content with mPrefix := content.mPrefix.take 23, mMessage := content.mMessage.take 511 }

/-- `struct sbfLogFileEntryImpl` -/
structure LogFileEntry extends LogContent where
  mNumber : UInt32
deriving DecidableEq, Repr

def LogFileEntry.zero : LogFileEntry := ⟨⟨⟨0, 0⟩, 0, [], []⟩, 0⟩

/-- What a writer stores next: the number in `sbfLogFile_get`, the rest in `sbfLog_vlog`. -/
inductive LogStore where
  | mNumber
  | mTime
  | mLevel
  | mPrefix
  | mMessage
deriving DecidableEq, Repr

/-- A thread inside `sbfLog_vlog`, behind its increment of `mNext`. -/
structure LogWriter where
  number : UInt32
  content : LogContent
  next : LogStore
deriving DecidableEq, Repr

/-- The next store of a writer, and what is left of it. -/
def LogWriter.store (writer : LogWriter) (lfe : LogFileEntry) : LogFileEntry × Option LogWriter :=
  match writer.next with
  | .mNumber => ({ lfe with mNumber := writer.number }, some { writer with next := .mTime })
  | .mTime => ({ lfe with mTime := writer.content.mTime }, some { writer with next := .mLevel })
  | .mLevel => ({ lfe with mLevel := writer.content.mLevel }, some { writer with next := .mPrefix })
  | .mPrefix =>
      ({ lfe with mPrefix := writer.content.mPrefix.take 23 }, some { writer with next := .mMessage })
  | .mMessage => ({ lfe with mMessage := writer.content.mMessage.take 511 }, none)

/-- A log file with its writers by their threads, and a reader with its counter. `logged` is
what was logged under each number, and `returned` what the reader got. -/
structure LogFile where
  mBase : Nat → LogFileEntry
  mNext : UInt32
  writers : Nat → Option LogWriter
  logged : Nat → Option LogContent
  number : UInt32
  returned : List LogFileEntry

namespace LogFile

/-- `sbfLogFile_create`, and a reader that starts at a number. -/
def create (number : UInt32) : LogFile where
  mBase := fun _ => .zero
  mNext := 0
  writers := fun _ => none
  logged := fun _ => none
  number := number
  returned := []

/-- The slot of a number. -/
def slot (number : UInt32) : Nat := number.toNat % logFileEntries

/-- A thread calls `sbfLog_vlog`, which takes a number. -/
def log (thread : Nat) (content : LogContent) (lf : LogFile) : LogFile :=
  if lf.writers thread = none then
    { lf with
      mNext := lf.mNext + 1
      writers := Function.update lf.writers thread (some ⟨lf.mNext, content, .mNumber⟩)
      logged := Function.update lf.logged lf.mNext.toNat (some content.fit) }
  else lf

/-- The next store of a thread. -/
def write (thread : Nat) (lf : LogFile) : LogFile :=
  match lf.writers thread with
  | none => lf
  | some writer =>
      let stored := writer.store (lf.mBase (slot writer.number))
      { lf with
        mBase := Function.update lf.mBase (slot writer.number) stored.1
        writers := Function.update lf.writers thread stored.2 }

/-- The test of `sbfLogFile_read` lets an entry through. -/
def Passes (lf : LogFile) : Prop :=
  ¬ ((lf.mBase (slot lf.number)).mTime.tv_sec = 0 ∨ (lf.mBase (slot lf.number)).mNumber < lf.number)

instance (lf : LogFile) : Decidable lf.Passes := by
  unfold Passes
  infer_instance

/-- `sbfLogFile_read` -/
def read (lf : LogFile) : LogFile :=
  if lf.Passes then
    { lf with
      number := lf.number + 1
      returned := lf.returned ++ [lf.mBase (slot lf.number)] }
  else lf

inductive Action where
  | log (thread : Nat) (content : LogContent)
  | write (thread : Nat)
  | read
deriving DecidableEq, Repr

def Action.logs : Action → Bool
  | .log _ _ => true
  | _ => false

def step : Action → LogFile → LogFile
  | .log thread content => log thread content
  | .write thread => write thread
  | .read => read

/-- The entries come with increasing numbers, each with what was logged under its number. -/
structure Intact (lf : LogFile) : Prop where
  ordered : lf.returned.Pairwise (fun first second => first.mNumber < second.mNumber)
  content : ∀ lfe ∈ lf.returned, lf.logged lfe.mNumber.toNat = some lfe.toLogContent

/-- No writer is at work in a slot. -/
def Free (lf : LogFile) (number : UInt32) : Prop :=
  ∀ thread writer, lf.writers thread = some writer → slot writer.number ≠ slot number

/-- A slot is taken when its last writer is done with it, and an entry is read when its writer is
done with it and the ring has not gone round past the reader. -/
def Clean : Action → LogFile → Prop
  | .log thread _, lf => lf.writers thread = none → lf.Free lf.mNext
  | .read, lf => lf.Passes → lf.Free lf.number ∧
      lf.mNext.toNat ≤ lf.number.toNat + logFileEntries
  | .write _, _ => True

end LogFile

end Sbf
