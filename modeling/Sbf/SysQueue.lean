import Sbf.LinkRing
import Sbf.StepSequences
import Sbf.TailqCycle
import Sbf.TportHeader

set_option autoImplicit false

/-! The tail queues of sysqueue.h. `TAILQ_HEAD` and `TAILQ_ENTRY` are laid out alike, the link to
an element first and then the address of the link to this one, so the address of a first field is
that of a cell, of the head or of an element; `TAILQ_LAST` makes use of that. -/

namespace Sbf.SysQueue

variable {ι : Type}

/-- `TAILQ_FIRST` -/
def first (queue : LinkRing ι) : Option ι := queue.link none

/-- `TAILQ_NEXT` -/
def next (queue : LinkRing ι) (elm : ι) : Option ι := queue.link (some elm)

/-- `TAILQ_LAST` -/
def last (queue : LinkRing ι) : Option ι := queue.link (queue.back (queue.back none))

/-- `TAILQ_PREV` -/
def prev (queue : LinkRing ι) (elm : ι) : Option ι :=
  queue.link (queue.back (queue.back (some elm)))

/-- The loop of `TAILQ_FOREACH`: the elements that its body is run for. -/
def foreachFrom (queue : LinkRing ι) : Nat → Option ι → Except Fault (List ι)
  | _, none => .ok []
  | 0, some _ => .error .endless
  | rounds + 1, some elm => do
      .ok (elm :: (← foreachFrom queue rounds (next queue elm)))

/-- `TAILQ_FOREACH` -/
def foreach (queue : LinkRing ι) (rounds : Nat) : Except Fault (List ι) :=
  foreachFrom queue rounds (first queue)

variable [DecidableEq ι]

def setNext (cell next : Option ι) (queue : LinkRing ι) : LinkRing ι :=
  { queue with link := Function.update queue.link cell next }

/-- The link back of the element, or where there is none, of the head. -/
def setPrev (cell prev : Option ι) (queue : LinkRing ι) : LinkRing ι :=
  { queue with back := Function.update queue.back cell prev }

/-- `TAILQ_INIT` -/
def init (queue : LinkRing ι) : LinkRing ι := setPrev none none (setNext none none queue)

/-- `TAILQ_INSERT_HEAD` -/
def insertHead (elm : ι) (queue : LinkRing ι) : LinkRing ι :=
  let queue := setNext (some elm) (first queue) queue
  let queue := setPrev (first queue) (some elm) queue
  setPrev (some elm) none (setNext none (some elm) queue)

/-- `TAILQ_INSERT_TAIL` -/
def insertTail (elm : ι) (queue : LinkRing ι) : LinkRing ι :=
  let queue := setNext (some elm) none queue
  let queue := setPrev (some elm) (queue.back none) queue
  let queue := setNext (queue.back none) (some elm) queue
  setPrev none (some elm) queue

/-- `TAILQ_REMOVE` -/
def remove (elm : ι) (queue : LinkRing ι) : LinkRing ι :=
  let queue := setPrev (next queue elm) (queue.back (some elm)) queue
  setNext (queue.back (some elm)) (next queue elm) queue

/-- The loop of `TAILQ_FOREACH_SAFE` with a body that takes some elements out of the queue and
frees them, after which they hold anything. -/
def foreachSafeFrom (freed : ι → Option (Option ι × Option ι)) :
    Nat → LinkRing ι → Option ι → Except Fault (LinkRing ι × List ι)
  | _, queue, none => .ok (queue, [])
  | 0, _, some _ => .error .endless
  | rounds + 1, queue, some elm => do
      let after := next queue elm
      let queue := match freed elm with
        | none => queue
        | some (link, back) => setPrev (some elm) back (setNext (some elm) link (remove elm queue))
      let (queue, rest) ← foreachSafeFrom freed rounds queue after
      .ok (queue, elm :: rest)

/-- `TAILQ_FOREACH_SAFE` -/
def foreachSafe (freed : ι → Option (Option ι × Option ι)) (queue : LinkRing ι) (rounds : Nat) :
    Except Fault (LinkRing ι × List ι) :=
  foreachSafeFrom freed rounds queue (first queue)

section Macros

variable {queue : LinkRing ι} {elm : ι} {elms before after : List ι}

theorem init_through (queue : LinkRing ι) : (init queue).Through [] := by
  refine ⟨fun edge inside => ?_, Multiset.nodup_singleton _, Multiset.nodup_singleton _⟩
  rw [Multiset.mem_singleton.mp inside]
  simp [init, setNext, setPrev]

theorem insertHead_through (through : queue.Through elms) (fresh : elm ∉ elms) :
    (insertHead elm queue).Through (elm :: elms) := by
  have joined := @LinkRing.Through.insert _ _ _ [] _ _ through fresh
  rw [← through.read_head.1] at joined
  simpa only [insertHead, first, setNext, setPrev, LinkRing.join, LinkRing.tip, List.nil_append,
    Function.update_of_ne (Option.some_ne_none elm).symm] using joined

theorem insertTail_through (through : queue.Through elms) (fresh : elm ∉ elms) :
    (insertTail elm queue).Through (elms ++ [elm]) := by
  have joined := @LinkRing.Through.insert _ _ elm elms [] _
    (by rwa [List.append_nil]) (by rwa [List.append_nil])
  have tail : queue.back none = LinkRing.tip none elms := by
    rw [LinkRing.tip_eq]
    exact through.read_head.2
  rw [← tail] at joined
  simpa only [insertTail, setNext, setPrev, LinkRing.join, List.head?_nil,
    Function.update_of_ne (Option.some_ne_none elm).symm,
    Function.update_comm (Option.some_ne_none elm)] using joined

theorem remove_through (through : queue.Through (before ++ elm :: after)) :
    (remove elm queue).Through (before ++ after) := by
  have erased := through.erase
  obtain ⟨onward, backward⟩ := through.read
  rw [← onward, ← backward] at erased
  have other : some elm ≠ queue.link (some elm) := by
    rw [onward]
    intro same
    have inside := List.mem_of_mem_head? same.symm
    have nodup := through.nodup
    rw [List.nodup_middle, List.nodup_cons] at nodup
    exact nodup.1 (List.mem_append_right _ inside)
  simpa only [remove, next, setNext, setPrev, LinkRing.join, Function.update_of_ne other]
    using erased

omit [DecidableEq ι] in
theorem last_through (through : queue.Through elms) : last queue = elms.getLast? := by
  rw [last, through.read_head.2]
  exact through.link_back fun elm inside => List.mem_of_getLast? inside

omit [DecidableEq ι] in
theorem prev_through (through : queue.Through (before ++ elm :: after)) :
    prev queue elm = before.getLast? := by
  rw [prev, through.read.2, LinkRing.tip_eq]
  exact through.link_back fun other inside =>
    List.mem_append_left _ (List.mem_of_getLast? inside)

omit [DecidableEq ι] in
theorem foreachFrom_through {rounds : Nat} (through : queue.Through (before ++ after))
    (enough : after.length ≤ rounds) : foreachFrom queue rounds after.head? = .ok after := by
  induction after generalizing before rounds with
  | nil => exact foreachFrom.eq_1 ..
  | cons elm after ih =>
      cases rounds with
      | zero => cases enough
      | succ rounds =>
          have onward := @ih (before ++ [elm]) rounds (by simpa using through)
            (Nat.le_of_succ_le_succ enough)
          rw [List.head?_cons, foreachFrom, next, through.read.1]
          simp only [onward, bind, Except.bind]

/-- A walk with removals: what was kept so far is before what is left to be visited. -/
theorem foreachSafeFrom_through (freed : ι → Option (Option ι × Option ι)) {rounds : Nat}
    (through : queue.Through (before ++ after)) (enough : after.length ≤ rounds) : ∃ left,
    foreachSafeFrom freed rounds queue after.head? = .ok (left, after) ∧
      left.Through (before ++ after.filter (fun elm => (freed elm).isNone)) := by
  induction after generalizing queue before rounds with
  | nil => exact ⟨queue, foreachSafeFrom.eq_1 .., through⟩
  | cons elm after ih =>
      cases rounds with
      | zero => cases enough
      | succ rounds =>
          have onward := through.read.1
          cases choice : freed elm with
          | none =>
              obtain ⟨left, ran, kept⟩ := @ih queue (before ++ [elm]) rounds
                (by simpa using through) (Nat.le_of_succ_le_succ enough)
              refine ⟨left, ?_, ?_⟩
              · simp only [List.head?_cons, foreachSafeFrom, next, onward, choice, ran, bind,
                  Except.bind]
              · rw [List.filter_cons_of_pos (by rw [choice]; rfl)]
                simpa using kept
          | some held =>
              obtain ⟨link, back⟩ := held
              have nodup := through.nodup
              rw [List.nodup_middle, List.nodup_cons] at nodup
              have freed' : (setPrev (some elm) back (setNext (some elm) link
                  (remove elm queue))).Through (before ++ after) := by
                refine (remove_through through).frame fun cell inside => ?_
                have other : cell ≠ some elm := by
                  rintro rfl
                  obtain none | ⟨elm', there, same⟩ := inside
                  · cases none
                  · exact nodup.1 (Option.some.inj same ▸ there)
                exact ⟨Function.update_of_ne other _ _, Function.update_of_ne other _ _⟩
              obtain ⟨left, ran, kept⟩ := ih freed' (Nat.le_of_succ_le_succ enough)
              refine ⟨left, ?_, ?_⟩
              · simp only [List.head?_cons, foreachSafeFrom, next, onward, choice, ran, bind,
                  Except.bind]
              · rwa [List.filter_cons_of_neg (by rw [choice]; simp)]

end Macros

section Runs

/-- What a caller of the macros does. -/
inductive Op (ι : Type) where
  | insertHead (elm : ι)
  | insertTail (elm : ι)
  | remove (elm : ι)
  | first
  | last
  | next (elm : ι)
  | prev (elm : ι)

/-- One call, with what it returns. -/
def perform (op : Op ι) : Step Fault (LinkRing ι) (Option ι) := fun queue =>
  match op with
  | .insertHead elm => .ok (insertHead elm queue, [])
  | .insertTail elm => .ok (insertTail elm queue, [])
  | .remove elm => .ok (remove elm queue, [])
  | .first => .ok (queue, [first queue])
  | .last => .ok (queue, [last queue])
  | .next elm => .ok (queue, [next queue elm])
  | .prev elm => .ok (queue, [prev queue elm])

/-- What the calls mean on a list. Only an element that is not on the list may be inserted, and
only one that is may be removed or asked for its neighbours. -/
def listed (op : Op ι) : Step Unit (List ι) (Option ι) := fun elms =>
  match op with
  | .insertHead elm => if elm ∈ elms then .error () else .ok (elm :: elms, [])
  | .insertTail elm => if elm ∈ elms then .error () else .ok (elms ++ [elm], [])
  | .remove elm => if elm ∈ elms then .ok (elms.erase elm, []) else .error ()
  | .first => .ok (elms, [elms.head?])
  | .last => .ok (elms, [elms.getLast?])
  | .next elm => if elm ∈ elms then .ok (elms, [Tailq.next elms elm]) else .error ()
  | .prev elm => if elm ∈ elms then .ok (elms, [Tailq.next elms.reverse elm]) else .error ()

variable {queue : LinkRing ι} {op : Op ι} {elms later : List ι} {out : List (Option ι)}

omit [DecidableEq ι] in
/-- An element of the queue is between those before and those after it. -/
theorem exists_split (through : queue.Through elms) {elm : ι} (inside : elm ∈ elms) :
    ∃ before after, elms = before ++ elm :: after ∧ elm ∉ before ∧ elm ∉ after := by
  obtain ⟨before, after, rfl⟩ := List.append_of_mem inside
  have nodup := through.nodup
  rw [List.nodup_middle, List.nodup_cons, List.mem_append, not_or] at nodup
  exact ⟨before, after, rfl, nodup.1⟩

/-- Each call does in memory what it means on the list. -/
theorem perform_refines (through : queue.Through elms) (ran : listed op elms = .ok (later, out)) :
    ∃ left, perform op queue = .ok (left, out) ∧ left.Through later := by
  cases op with
  | insertHead elm =>
      simp only [listed] at ran
      split at ran
      · cases ran
      · rename_i fresh
        cases ran
        exact ⟨_, rfl, insertHead_through through fresh⟩
  | insertTail elm =>
      simp only [listed] at ran
      split at ran
      · cases ran
      · rename_i fresh
        cases ran
        exact ⟨_, rfl, insertTail_through through fresh⟩
  | remove elm =>
      simp only [listed] at ran
      split at ran
      · rename_i inside
        cases ran
        obtain ⟨before, after, rfl, fresh, -⟩ := exists_split through inside
        refine ⟨_, rfl, ?_⟩
        rw [List.erase_append_right _ fresh, List.erase_cons_head]
        exact remove_through through
      · cases ran
  | first =>
      cases ran
      exact ⟨queue, by rw [perform, first, through.read_head.1], through⟩
  | last =>
      cases ran
      exact ⟨queue, by rw [perform, last_through through], through⟩
  | next elm =>
      simp only [listed] at ran
      split at ran
      · rename_i inside
        cases ran
        obtain ⟨before, after, rfl, fresh, -⟩ := exists_split through inside
        exact ⟨queue, by rw [perform, next, through.read.1, Tailq.next_split _ _ _ fresh], through⟩
      · cases ran
  | prev elm =>
      simp only [listed] at ran
      split at ran
      · rename_i inside
        cases ran
        obtain ⟨before, after, rfl, -, fresh⟩ := exists_split through inside
        refine ⟨queue, ?_, through⟩
        rw [perform, prev_through through, List.reverse_append, List.reverse_cons,
          List.append_assoc, List.singleton_append,
          Tailq.next_split _ _ _ (by rwa [List.mem_reverse]), List.head?_reverse]
      · cases ran

/-- Whatever calls are made on an initialised queue, as long as only elements off the queue are
inserted and only elements on it removed or asked for their neighbours, each returns what the
list of the elements tells. After them `TAILQ_FOREACH` visits the elements of the list in order,
and so does `TAILQ_FOREACH_SAFE` when its body takes elements out and frees them, whatever their
memory holds then, with the others left on the queue. -/
theorem queue_run_refines (memory : LinkRing ι) (ops : List (Op ι)) (rounds : Nat)
    (ran : Step.all (ops.map listed) [] = .ok (elms, out)) (enough : elms.length ≤ rounds) :
    ∃ queue, Step.all (ops.map perform) (init memory) = .ok (queue, out) ∧
      queue.Through elms ∧ foreach queue rounds = .ok elms ∧
      ∀ freed : ι → Option (Option ι × Option ι), ∃ left,
        foreachSafe freed queue rounds = .ok (left, elms) ∧
        left.Through (elms.filter (fun elm => (freed elm).isNone)) := by
  obtain ⟨queue, done, through⟩ := @Step.all_refines _ _ _ _
    (fun _ queue elms => queue.Through elms) _ _ perform listed ops.length
    (fun _ through ran => perform_refines through ran) ops 0 _ _ _ _
    (Nat.zero_add _).le (init_through memory) ran
  refine ⟨queue, done, through, ?_, fun freed => ?_⟩
  · rw [foreach, first, through.read_head.1]
    exact @foreachFrom_through _ _ [] _ _ through enough
  · rw [foreachSafe, first, through.read_head.1]
    exact @foreachSafeFrom_through _ _ _ [] _ freed _ through enough

theorem queue_run_refines_three : ∃ queue left,
    Step.all (([.insertTail 1, .insertTail 2, .insertHead 0, .remove 1, .insertTail 3, .last,
      .prev 2, .next 2] : List (Op Nat)).map perform) (init ⟨fun _ => some 9, fun _ => some 9⟩) =
        .ok (queue, [some 3, some 0, some 3]) ∧
      foreach queue 3 = .ok [0, 2, 3] ∧
      foreachSafe (fun elm => if elm = 2 then some (some 2, some 2) else none) queue 3 =
        .ok (left, [0, 2, 3]) ∧ left.Through [0, 3] := by
  obtain ⟨queue, done, -, walked, safe⟩ := @queue_run_refines _ _ [0, 2, 3]
    [some 3, some 0, some 3] ⟨fun _ => some 9, fun _ => some 9⟩
    [.insertTail 1, .insertTail 2, .insertHead 0, .remove 1, .insertTail 3, .last, .prev 2,
      .next 2] 3 rfl (by decide)
  obtain ⟨left, visited, kept⟩ := safe (fun elm => if elm = 2 then some (some 2, some 2) else none)
  exact ⟨queue, left, done, walked, visited, kept⟩

end Runs

end Sbf.SysQueue
