import Sbf.TportHeader

set_option autoImplicit false

namespace Sbf

open Octets

/-- `sbfTopicType` -/
inductive TopicType where
  | pub
  | sub
  deriving DecidableEq, Repr

/-- `SBF_TOPIC_SIZE_LIMIT` -/
def topicSizeLimit : Nat := 255

def slash : UInt8 := 47

/-- `struct sbfTopicImpl`: the canonical name is the three parts with slashes
between them, and is never longer than the limit. -/
structure Topic where
  mType : TopicType
  mTopic : CString
  mFirst : CString
  mSecond : CString
  mThird : CString
  named : mTopic.chars = mFirst.chars ++ slash :: (mSecond.chars ++ slash :: mThird.chars)
  within : mTopic.chars.length ≤ topicSizeLimit
  deriving DecidableEq

namespace Topic

/-- The `out` label of `sbfTopic_create`: format the name and check its length. -/
def format (type : TopicType) (first second third : CString) : Option Topic :=
  let name := first.join slash (by decide) (second.join slash (by decide) third)
  if within : name.chars.length ≤ topicSizeLimit then
    some ⟨type, name, first, second, third, rfl, within⟩
  else none

/-- `sbfTopic_create`: up to two slashes separate the parts from the right; what
is behind the second slash is the third part, slashes included. -/
def create (type : TopicType) (string : CString) : Option Topic :=
  match string.behind slash with
  | none => format type .empty .empty (string.upTo slash)
  | some rest =>
      match rest.behind slash with
      | none => format type .empty (string.upTo slash) (rest.upTo slash)
      | some third => format type (string.upTo slash) (rest.upTo slash) third

theorem format_some (type : TopicType) (first second third : CString)
    (within : (first.chars ++ slash :: (second.chars ++ slash :: third.chars)).length ≤
      topicSizeLimit) :
    ∃ topic, format type first second third = some topic ∧
      topic.mTopic.chars = first.chars ++ slash :: (second.chars ++ slash :: third.chars) := by
  simp only [format, CString.join_chars, within, ↓reduceDIte]
  exact ⟨_, rfl, rfl⟩

theorem format_mType {type : TopicType} {first second third : CString} {topic : Topic}
    (made : format type first second third = some topic) : topic.mType = type := by
  unfold format at made
  dsimp only at made
  split at made
  · cases made
    rfl
  · cases made

theorem create_mType {type : TopicType} {string : CString} {topic : Topic}
    (made : create type string = some topic) : topic.mType = type := by
  unfold create at made
  split at made
  · exact format_mType made
  · split at made <;> exact format_mType made

/-- A string without slashes is the third part. -/
theorem create_plain (type : TopicType) (string : CString) (plain : slash ∉ string.chars) :
    create type string = format type .empty .empty string := by
  have all : string.upTo slash = string := by
    apply CString.ext
    apply List.takeWhile_eq_self_iff.mpr
    intro c member
    simp only [ne_eq, decide_not, Bool.not_eq_eq_eq_not, Bool.not_true, decide_eq_false_iff_not]
    rintro rfl
    exact plain member
  simp only [create, CString.behind, if_neg plain, all]

end Topic

end Sbf
