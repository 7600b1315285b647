import Sbf.StringParts
import Sbf.TopicCreate

set_option autoImplicit false

namespace Sbf.Topic

open Octets

/-- The sign of `sbfTopic_compare`. -/
def compare (lhs rhs : Topic) : Ordering :=
  if lhs.mType ≠ rhs.mType then
    if lhs.mType = .pub then .lt else .gt
  else lhs.mTopic.strcmp rhs.mTopic

/-- The three parts of a topic. -/
def parts (topic : Topic) : CString × CString × CString :=
  (topic.mFirst, topic.mSecond, topic.mThird)

/-- Only the third part may hold a slash. -/
def Cut (topic : Topic) : Prop := slash ∉ topic.mFirst.chars ∧ slash ∉ topic.mSecond.chars

theorem format_parts {type : TopicType} {first second third : CString} {topic : Topic}
    (made : format type first second third = some topic) :
    topic.parts = (first, second, third) := by
  unfold format at made
  dsimp only at made
  split at made
  · cases made
    rfl
  · cases made

/-- Whatever the string, the parts in front of a slash are free of slashes. -/
theorem create_eq_format (type : TopicType) (string : CString) :
    ∃ first second third, slash ∉ first.chars ∧ slash ∉ second.chars ∧
      create type string = format type first second third := by
  have clear : slash ∉ CString.empty.chars := List.not_mem_nil
  unfold create
  cases string.behind slash with
  | none => exact ⟨_, _, _, clear, clear, rfl⟩
  | some rest =>
      dsimp only
      cases rest.behind slash with
      | none => exact ⟨_, _, _, clear, CString.upTo_absent string slash, rfl⟩
      | some third =>
          exact ⟨_, _, _, CString.upTo_absent string slash, CString.upTo_absent rest slash, rfl⟩

theorem create_cut {type : TopicType} {string : CString} {topic : Topic}
    (made : create type string = some topic) : topic.Cut := by
  obtain ⟨first, second, third, firstClear, secondClear, format⟩ := create_eq_format type string
  have same := format_parts (format ▸ made)
  cases same
  exact ⟨firstClear, secondClear⟩

/-- A canonical name is cut at its two separators. -/
theorem create_name {topic : Topic} (cut : topic.Cut) (type : TopicType) :
    create type topic.mTopic = format type topic.mFirst topic.mSecond topic.mThird := by
  let back := topic.mSecond.join slash (by decide) topic.mThird
  have rest : topic.mTopic.behind slash = some back := CString.behind_cut cut.1 topic.named
  have first : topic.mTopic.upTo slash = topic.mFirst :=
    CString.upTo_cut back cut.1 topic.named
  have third : back.behind slash = some topic.mThird := CString.behind_cut cut.2 rfl
  have second : back.upTo slash = topic.mSecond :=
    CString.upTo_cut topic.mThird cut.2 rfl
  simp only [create, rest, third, first, second]

theorem format_self (topic : Topic) (type : TopicType) :
    format type topic.mFirst topic.mSecond topic.mThird = some { topic with mType := type } := by
  have name : topic.mFirst.join slash (by decide)
      (topic.mSecond.join slash (by decide) topic.mThird) = topic.mTopic :=
    CString.ext topic.named.symm
  unfold format
  simp only [name, topic.within, ↓reduceDIte]

theorem parts_of_name {left right : Topic} (leftCut : left.Cut) (rightCut : right.Cut)
    (same : left.mTopic = right.mTopic) : left.parts = right.parts := by
  have again : format .pub left.mFirst left.mSecond left.mThird =
      format .pub right.mFirst right.mSecond right.mThird := by
    rw [← create_name leftCut, ← create_name rightCut, same]
  rw [format_self, format_self, Option.some.injEq, Topic.mk.injEq] at again
  simp only [parts, Prod.mk.injEq]
  exact again.2.2

theorem name_of_parts {left right : Topic} (same : left.parts = right.parts) :
    left.mTopic = right.mTopic := by
  simp only [parts, Prod.mk.injEq] at same
  apply CString.ext
  rw [left.named, right.named, same.1, same.2.1, same.2.2]

theorem compare_eq {left right : Topic} :
    compare left right = .eq ↔ left.mType = right.mType ∧ left.mTopic = right.mTopic := by
  unfold compare
  split
  case isTrue apart =>
      split <;> simp [apart]
  case isFalse same =>
      simp only [ne_eq, not_not] at same
      simp only [CString.strcmp_eq, same, true_and]

/-- Canonical names: a name that a topic was given is cut into the parts it was made
from, so that the name and the parts of a topic determine each other. -/
theorem create_canonical {type : TopicType} {string : CString} {topic : Topic}
    (made : create type string = some topic) :
    (slash ∉ topic.mFirst.chars ∧ slash ∉ topic.mSecond.chars) ∧
    (∀ again, create again topic.mTopic = some { topic with mType := again }) ∧
    ∀ {type' : TopicType} {string' : CString} {topic' : Topic},
      create type' string' = some topic' →
      (topic.mTopic = topic'.mTopic ↔
        topic.mFirst = topic'.mFirst ∧ topic.mSecond = topic'.mSecond ∧
          topic.mThird = topic'.mThird) ∧
      (compare topic topic' = .eq ↔ topic.mType = topic'.mType ∧
        topic.mFirst = topic'.mFirst ∧ topic.mSecond = topic'.mSecond ∧
          topic.mThird = topic'.mThird) := by
  have cut := create_cut made
  refine ⟨cut, ?_, ?_⟩
  · intro again
    rw [create_name cut, format_self]
  · intro type' string' topic' made'
    have names : topic.mTopic = topic'.mTopic ↔
        topic.mFirst = topic'.mFirst ∧ topic.mSecond = topic'.mSecond ∧
          topic.mThird = topic'.mThird := by
      constructor
      · intro same
        simpa only [parts, Prod.mk.injEq] using parts_of_name cut (create_cut made') same
      · intro same
        apply name_of_parts
        simpa only [parts, Prod.mk.injEq] using same
    exact ⟨names, by rw [compare_eq, names]⟩

/-- `a//b/c` has an empty second part and a slash in its third. -/
theorem create_canonical_empty :
    ∃ topic, create .sub ⟨[97, 47, 47, 98, 47, 99], by decide⟩ = some topic ∧
      topic.parts = (⟨[97], by decide⟩, .empty, ⟨[98, 47, 99], by decide⟩) ∧
      create .pub topic.mTopic = some { topic with mType := .pub } ∧
      (topic.mTopic = topic.mTopic ↔ topic.mFirst = topic.mFirst ∧
        topic.mSecond = topic.mSecond ∧ topic.mThird = topic.mThird) := by
  have made : create .sub ⟨[97, 47, 47, 98, 47, 99], by decide⟩ =
      some ⟨.sub, ⟨[97, 47, 47, 98, 47, 99], by decide⟩, ⟨[97], by decide⟩, .empty,
        ⟨[98, 47, 99], by decide⟩, by decide, by decide⟩ := by decide
  have canonical := create_canonical made
  exact ⟨_, made, rfl, canonical.2.1 .pub, (canonical.2.2 made).1⟩

end Sbf.Topic
