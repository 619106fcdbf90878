import Mathlib

/-!
# Bounded queues

A first-in first-out queue that refuses an item when it is full. Beside what is waiting it
keeps all that was ever put into it and taken out of it, so that statements about whole runs
can speak of both. An inbox is such a queue with a receiver before it, who decodes packets and
answers each of them.
-/

namespace FlightSoftware

structure BoundedQueue (α : Type*) where
  waiting : List α
  put : List α
  taken : List α

namespace BoundedQueue

variable {α : Type*}

def empty : BoundedQueue α := ⟨[],[],[]⟩

/-- The queue with one more item, unless it is full. -/
def offer (capacity : ℕ) (a : α) (q : BoundedQueue α) : Option (BoundedQueue α) :=
  if q.waiting.length < capacity then some ⟨q.waiting ++ [a],q.put ++ [a],q.taken⟩ else none

/-- The item that has waited longest, and the queue without it. -/
def poll (q : BoundedQueue α) : Option (α × BoundedQueue α) :=
  match q.waiting with
  | [] => none
  | a :: rest => some (a,⟨rest,q.put,q.taken ++ [a]⟩)

/-- Items come out in the order in which they went in, and none is lost. -/
structure Fifo (capacity : ℕ) (q : BoundedQueue α) : Prop where
  order : q.taken ++ q.waiting = q.put
  bounded : q.waiting.length ≤ capacity

variable {capacity : ℕ} {q q' : BoundedQueue α} {a : α}

theorem fifo_empty : (empty : BoundedQueue α).Fifo capacity := ⟨rfl,Nat.zero_le _⟩

theorem offer_eq_some (h : q.offer capacity a = some q') :
    q.waiting.length < capacity ∧ q' = ⟨q.waiting ++ [a],q.put ++ [a],q.taken⟩ := by
  rw [offer] at h
  split_ifs at h with hroom
  exact ⟨hroom,(Option.some.inj h).symm⟩

theorem poll_eq_some (h : q.poll = some (a,q')) :
    q.waiting = a :: q'.waiting ∧ q'.put = q.put ∧ q'.taken = q.taken ++ [a] := by
  rw [poll] at h
  cases hwaiting : q.waiting with
  | nil =>
    rw [hwaiting] at h
    cases h
  | cons b rest =>
    rw [hwaiting] at h
    obtain ⟨rfl,rfl⟩ := Prod.mk.inj (Option.some.inj h)
    exact ⟨rfl,rfl,rfl⟩

theorem Fifo.offer (hq : q.Fifo capacity) (h : q.offer capacity a = some q') :
    q'.Fifo capacity := by
  obtain ⟨hroom,rfl⟩ := offer_eq_some h
  refine ⟨?_,?_⟩
  · rw [← List.append_assoc,hq.order]
  · rw [List.length_append]
    exact hroom

theorem Fifo.poll (hq : q.Fifo capacity) (h : q.poll = some (a,q')) : q'.Fifo capacity := by
  obtain ⟨hwaiting,hput,htaken⟩ := poll_eq_some h
  have hbounded := hq.bounded
  refine ⟨?_,?_⟩
  · rw [hput,htaken,List.append_assoc,List.singleton_append,← hwaiting,hq.order]
  · rw [hwaiting,List.length_cons] at hbounded
    omega

/-- What holds of all that went in holds of what came out, and of what waits. -/
theorem Fifo.taken_of_put (hq : q.Fifo capacity) {P : α → Prop} (h : ∀ a ∈ q.put,P a) :
    ∀ a ∈ q.taken,P a :=
  fun a ha => h a (hq.order ▸ List.mem_append_left _ ha)

theorem Fifo.waiting_of_put (hq : q.Fifo capacity) {P : α → Prop} (h : ∀ a ∈ q.put,P a) :
    ∀ a ∈ q.waiting,P a :=
  fun a ha => h a (hq.order ▸ List.mem_append_right _ ha)

end BoundedQueue

/-! ### Inboxes -/

/-- A packet with the status that it was answered with, and how many items were waiting then. -/
structure Answer (π : Type*) where
  packet : π
  ack : Bool
  waiting : ℕ

/-- `decode` gives the item of a packet, or the status of a packet that has none. -/
structure Inbox (π α : Type*) where
  queue : BoundedQueue α
  answers : List (Answer π)

variable {π α : Type*}

/-- The item that an answer has accepted. -/
def Answer.accepted (decode : π → Except Bool α) (a : Answer π) : Option α :=
  if a.ack then (decode a.packet).toOption else none

namespace Inbox

def empty : Inbox π α := ⟨.empty,[]⟩

def answer (packet : π) (ack : Bool) (b : Inbox π α) : Inbox π α :=
  { b with answers := b.answers ++ [⟨packet,ack,b.queue.waiting.length⟩] }

/-- The packet is answered by whether its item found room, or by its status. -/
def receive (capacity : ℕ) (decode : π → Except Bool α) (packet : π) (b : Inbox π α) :
    Inbox π α :=
  match decode packet with
  | .error ack => b.answer packet ack
  | .ok a =>
    match b.queue.offer capacity a with
    | some queue => { b.answer packet true with queue := queue }
    | none => b.answer packet false

/-- The items that have been put into the queue are those of the packets with a positive answer, and
only a full queue is a reason to refuse one. -/
structure Sound (capacity : ℕ) (decode : π → Except Bool α) (b : Inbox π α) : Prop where
  fifo : b.queue.Fifo capacity
  put : b.queue.put = b.answers.filterMap (Answer.accepted decode)
  full : ∀ x ∈ b.answers,∀ a,decode x.packet = .ok a → (x.ack = false ↔ x.waiting = capacity)

variable {capacity : ℕ} {decode : π → Except Bool α} {b : Inbox π α}

theorem sound_empty : (empty : Inbox π α).Sound capacity decode where
  fifo := BoundedQueue.fifo_empty
  put := rfl
  full x hx := by cases hx

theorem filterMap_answer (packet : π) (ack : Bool) (b : Inbox π α) :
    (b.answer packet ack).answers.filterMap (Answer.accepted decode) =
      b.answers.filterMap (Answer.accepted decode) ++
        (Answer.accepted decode ⟨packet,ack,b.queue.waiting.length⟩).toList := by
  rw [answer,List.filterMap_append]
  cases h : Answer.accepted decode ⟨packet,ack,b.queue.waiting.length⟩ with
  | none => rw [List.filterMap_cons_none h]; rfl
  | some a => rw [List.filterMap_cons_some h]; rfl

/-- An answer that puts nothing into the queue. -/
theorem Sound.answer (hb : b.Sound capacity decode) {packet : π} {ack : Bool}
    (hnone : Answer.accepted decode ⟨packet,ack,b.queue.waiting.length⟩ = none)
    (hfull : ∀ a,decode packet = .ok a → (ack = false ↔ b.queue.waiting.length = capacity)) :
    (b.answer packet ack).Sound capacity decode where
  fifo := hb.fifo
  put := by
    rw [filterMap_answer,hnone,Option.toList_none,List.append_nil]
    exact hb.put
  full x hx := (List.mem_append.mp hx).elim (hb.full x) fun hlast =>
    List.mem_singleton.mp hlast ▸ hfull

theorem Sound.receive (hb : b.Sound capacity decode) (packet : π) :
    (b.receive capacity decode packet).Sound capacity decode := by
  rw [Inbox.receive]
  cases hdecode : decode packet with
  | error ack =>
    refine hb.answer ?_ fun a h => ?_
    · rw [Answer.accepted,hdecode]
      exact ite_self _
    · cases hdecode.symm.trans h
  | ok a =>
    dsimp only
    cases hoffer : b.queue.offer capacity a with
    | none =>
      refine hb.answer rfl fun _ _ => iff_of_true rfl (hb.fifo.bounded.antisymm ?_)
      rw [BoundedQueue.offer] at hoffer
      split_ifs at hoffer with hroom
      exact not_lt.mp hroom
    | some queue =>
      have hqueue := hb.fifo.offer hoffer
      obtain ⟨hroom,rfl⟩ := BoundedQueue.offer_eq_some hoffer
      refine ⟨hqueue,?_,fun x hx => ?_⟩
      · have haccepted : Answer.accepted decode ⟨packet,true,b.queue.waiting.length⟩ = some a := by
          rw [Answer.accepted,if_pos rfl,hdecode]
          rfl
        show b.queue.put ++ [a] = (b.answer packet true).answers.filterMap _
        rw [filterMap_answer,haccepted,hb.put,Option.toList_some]
      · refine (List.mem_append.mp hx).elim (hb.full x) fun hlast => ?_
        obtain rfl := List.mem_singleton.mp hlast
        exact fun _ _ => iff_of_false (fun h => Bool.noConfusion h) hroom.ne

/-- Receiving takes nothing out. -/
theorem receive_taken (packet : π) (b : Inbox π α) :
    (b.receive capacity decode packet).queue.taken = b.queue.taken := by
  rw [Inbox.receive]
  cases decode packet with
  | error ack => rfl
  | ok a =>
    dsimp only
    cases hoffer : b.queue.offer capacity a with
    | none => rfl
    | some queue =>
      obtain ⟨-,rfl⟩ := BoundedQueue.offer_eq_some hoffer
      rfl

/-- Every packet is answered. -/
theorem receive_answers (packet : π) (b : Inbox π α) :
    (b.receive capacity decode packet).answers.map Answer.packet =
      b.answers.map Answer.packet ++ [packet] := by
  have hanswer (ack : Bool) : (b.answer packet ack).answers.map Answer.packet =
      b.answers.map Answer.packet ++ [packet] := List.map_append
  rw [Inbox.receive]
  cases decode packet with
  | error ack => exact hanswer ack
  | ok a =>
    dsimp only
    cases b.queue.offer capacity a with
    | none => exact hanswer false
    | some queue => exact hanswer true

theorem Sound.poll (hb : b.Sound capacity decode) {a : α} {queue : BoundedQueue α}
    (h : b.queue.poll = some (a,queue)) :
    Inbox.Sound capacity decode { b with queue := queue } :=
  ⟨hb.fifo.poll h,(BoundedQueue.poll_eq_some h).2.1.trans hb.put,hb.full⟩

/-- What holds of all items that decoding yields holds of those in the queue. -/
theorem Sound.put_of_decode (hb : b.Sound capacity decode) {P : α → Prop}
    (hP : ∀ packet a,decode packet = .ok a → P a) : ∀ a ∈ b.queue.put,P a := by
  intro a ha
  rw [hb.put] at ha
  obtain ⟨x,-,hx⟩ := List.mem_filterMap.mp ha
  rw [Answer.accepted] at hx
  split_ifs at hx
  cases hdecode : decode x.packet with
  | error ack =>
    rw [hdecode] at hx
    cases hx
  | ok c =>
    rw [hdecode] at hx
    obtain rfl := Option.some.inj hx
    exact hP x.packet c hdecode

/-- If the packets that were answered are some of those in `xs`, each accepted item comes from one
of these, no two from the same. -/
theorem accepted_traced {β : Type*} (decode : π → Except Bool α) (data : β → π)
    {answers : List (Answer π)} {xs : List β}
    (h : (answers.map Answer.packet).Sublist (xs.map data)) :
    ∃ traced : List (β × α),traced.map Prod.snd = answers.filterMap (Answer.accepted decode) ∧
      traced.Sublist (xs.filterMap fun x => (decode (data x)).toOption.map fun a => (x,a)) := by
  obtain ⟨ys,hys,heq⟩ := List.sublist_map_iff.mp h
  suffices hall : ∃ traced : List (β × α),
      traced.map Prod.snd = answers.filterMap (Answer.accepted decode) ∧
      traced.Sublist (ys.filterMap fun x => (decode (data x)).toOption.map fun a => (x,a)) from
    hall.imp fun traced ht => ⟨ht.1,ht.2.trans (hys.filterMap _)⟩
  clear h hys
  induction answers generalizing ys with
  | nil => exact ⟨[],rfl,List.nil_sublist _⟩
  | cons answer answers ih =>
    obtain ⟨y,rest,rfl,hy,hrest⟩ := List.map_eq_cons_iff.mp heq.symm
    obtain ⟨traced,hitems,hsub⟩ := ih rest hrest.symm
    cases haccepted : answer.accepted decode with
    | none =>
      refine ⟨traced,by rw [hitems,List.filterMap_cons_none haccepted],hsub.trans ?_⟩
      exact (List.sublist_cons_self ..).filterMap _
    | some a =>
      have hdecode : (decode (data y)).toOption = some a := by
        rw [Answer.accepted] at haccepted
        split_ifs at haccepted
        rwa [hy]
      refine ⟨(y,a) :: traced,?_,?_⟩
      · rw [List.map_cons,hitems,List.filterMap_cons_some haccepted]
      · rw [List.filterMap_cons_some (b := (y,a)) (by rw [hdecode]; rfl)]
        exact hsub.cons_cons _

end Inbox

end FlightSoftware
