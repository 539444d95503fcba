import Mathlib.Data.List.Basic
import Mathlib.Data.List.Infix
import Mathlib.Tactic.Ring

/-!
# Numbered packets of long messages

A message of at most `limit` cells travels as one packet numbered `0`.  A longer
one is cut into `n` packets of `limit` cells, the last one possibly shorter,
numbered `-n, 1, 2, …, n - 1`.  `assemble` is the receiving automaton for this
numbering; `assemble_flatMap` and `assemble_prefix` are its round trip with
`encode`, for whole streams and for streams cut at any packet.
-/

namespace Hermes

namespace Packets

variable {Cell : Type*}

/-- One packet: its number, the length of the message from its body on, and its body. -/
structure Packet (Cell : Type*) where
  seq : ℤ
  size : ℕ
  body : List Cell
  deriving DecidableEq, Repr

/-- Number of packets of a message. -/
def count (limit : ℕ) (message : List Cell) : ℕ :=
  max 1 ((message.length + limit - 1) / limit)

/-- Packet number `index` of a message, counted from zero. -/
def packet (limit : ℕ) (message : List Cell) (index : ℕ) : Packet Cell where
  seq := if index = 0 then
      if count limit message = 1 then 0 else -(count limit message : ℤ)
    else index
  size := message.length - index * limit
  body := (message.drop (index * limit)).take limit

/-- All packets of a message, in sending order. -/
def encode (limit : ℕ) (message : List Cell) : List (Packet Cell) :=
  (List.range (count limit message)).map (packet limit message)

/-- A message of which some but not all packets have arrived. -/
structure Unfinished (Cell : Type*) where
  total : ℕ
  next : ℕ
  body : List Cell
  deriving DecidableEq, Repr

/-- What a receiver holds: the whole messages and at most one unfinished one. -/
structure Assembly (Cell : Type*) where
  messages : List (List Cell)
  unfinished : Option (Unfinished Cell)
  deriving DecidableEq, Repr

/-- Take one more packet; `none` when its number does not fit. -/
def Assembly.take (assembly : Assembly Cell) (packet : Packet Cell) : Option (Assembly Cell) :=
  match assembly.unfinished with
  | none =>
      if packet.seq = 0 then
        some ⟨assembly.messages ++ [packet.body], none⟩
      else if packet.seq < -1 then
        some ⟨assembly.messages, some ⟨(-packet.seq).toNat, 1, packet.body⟩⟩
      else none
  | some unfinished =>
      if packet.seq = unfinished.next then
        if unfinished.next + 1 = unfinished.total then
          some ⟨assembly.messages ++ [unfinished.body ++ packet.body], none⟩
        else
          some ⟨assembly.messages, some
            ⟨unfinished.total, unfinished.next + 1, unfinished.body ++ packet.body⟩⟩
      else none

/-- Take a stream of packets from the start. -/
def assemble (packets : List (Packet Cell)) : Option (Assembly Cell) :=
  packets.foldlM Assembly.take ⟨[], none⟩

/-- The assembly after `messages` and the first `index` packets of `message`. -/
def progress (limit : ℕ) (messages : List (List Cell)) (message : List Cell) (index : ℕ) :
    Assembly Cell where
  messages := messages
  unfinished :=
    if index = 0 then none
    else some ⟨count limit message, index, message.take (index * limit)⟩

@[simp]
theorem length_encode (limit : ℕ) (message : List Cell) :
    (encode limit message).length = count limit message := by
  simp [encode]

theorem count_pos (limit : ℕ) (message : List Cell) : 0 < count limit message := by
  simp [count]

theorem count_eq_one_iff {limit : ℕ} (positive : 0 < limit) (message : List Cell) :
    count limit message = 1 ↔ message.length ≤ limit := by
  simp only [count]
  have bound := Nat.div_lt_iff_lt_mul (x := message.length + limit - 1) (y := 2) positive
  omega

/-- A message has another packet after number `index` when its cells go on beyond it. -/
theorem succ_lt_count_iff {limit : ℕ} (positive : 0 < limit) (message : List Cell) (index : ℕ) :
    index + 1 < count limit message ↔ (index + 1) * limit < message.length := by
  simp only [count]
  have bound := Nat.le_div_iff_mul_le (x := index + 2) (y := message.length + limit - 1) positive
  have expand : (index + 2) * limit = (index + 1) * limit + limit := by ring
  omega

theorem encode_take_succ (limit : ℕ) (message : List Cell) {index : ℕ}
    (more : index < count limit message) :
    (encode limit message).take (index + 1) =
      (encode limit message).take index ++ [packet limit message index] := by
  rw [List.take_succ_eq_append_getElem (by simpa using more)]
  simp [encode]

/-- The bodies up to packet `index` are the first cells of the message. -/
theorem take_body (limit : ℕ) (message : List Cell) (index : ℕ) :
    message.take (index * limit) ++ (packet limit message index).body =
      message.take ((index + 1) * limit) := by
  rw [packet, Nat.succ_mul, List.take_add]

/-- One packet moves the assembly one packet on, or completes the message. -/
theorem progress_take {limit : ℕ} (positive : 0 < limit) (messages : List (List Cell))
    (message : List Cell) (index : ℕ) (more : index < count limit message) :
    (progress limit messages message index).take (packet limit message index) =
      some (if index + 1 = count limit message then
        ⟨messages ++ [message], none⟩
      else progress limit messages message (index + 1)) := by
  have body := take_body limit message index
  rcases Nat.eq_zero_or_pos index with rfl | later
  · by_cases single : count limit message = 1
    · have short := (count_eq_one_iff positive message).mp single
      simp [progress, Assembly.take, packet, single, List.take_of_length_le short]
    · have many : 1 < count limit message := by
        have := count_pos limit message
        omega
      have seq : (packet limit message 0).seq = -(count limit message : ℤ) := by
        simp [packet, single]
      have notSingle : -(count limit message : ℤ) ≠ 0 := by omega
      have multi : -(count limit message : ℤ) < -1 := by omega
      simp only [Nat.zero_mul, List.take_zero, List.nil_append] at body
      simp only [progress, Assembly.take, seq, body, if_true, if_neg notSingle, if_pos multi]
      simp [Ne.symm single]
  · have nonzero : index ≠ 0 := by omega
    have seq : (packet limit message index).seq = index := by simp [packet, nonzero]
    by_cases last : index + 1 = count limit message
    · have covered : message.length ≤ (index + 1) * limit := by
        have := (succ_lt_count_iff positive message index).not
        omega
      have whole := body.trans (List.take_of_length_le covered)
      simp [progress, Assembly.take, seq, nonzero, whole, last]
    · simp [progress, Assembly.take, seq, nonzero, body, last]

/-- The first packets of a message, taken after whole messages. -/
theorem foldlM_take {limit : ℕ} (positive : 0 < limit) (messages : List (List Cell))
    (message : List Cell) {index : ℕ} (more : index < count limit message) :
    ((encode limit message).take index).foldlM Assembly.take (⟨messages, none⟩ : Assembly Cell) =
      some (progress limit messages message index) := by
  induction index with
  | zero => simp [progress]
  | succ index ih =>
      have notLast : index + 1 ≠ count limit message := by omega
      rw [encode_take_succ limit message (by omega), List.foldlM_append, ih (by omega)]
      simp [progress_take positive messages message index (by omega), notLast]

theorem foldlM_encode {limit : ℕ} (positive : 0 < limit) (messages : List (List Cell))
    (message : List Cell) :
    (encode limit message).foldlM Assembly.take (⟨messages, none⟩ : Assembly Cell) =
      some ⟨messages ++ [message], none⟩ := by
  have nonempty := count_pos limit message
  obtain ⟨last, lastEq⟩ : ∃ last, count limit message = last + 1 :=
    ⟨count limit message - 1, by omega⟩
  have whole : (encode limit message).take (last + 1) = encode limit message :=
    List.take_of_length_le (by simp [lastEq])
  rw [← whole, encode_take_succ limit message (by omega), List.foldlM_append,
    foldlM_take positive messages message (by omega)]
  simp [progress_take positive messages message last (by omega), lastEq]

/-- Assembling all packets of a list of messages gives back exactly these messages. -/
theorem assemble_flatMap {limit : ℕ} (positive : 0 < limit) (messages : List (List Cell)) :
    assemble (messages.flatMap (encode limit)) = some ⟨messages, none⟩ := by
  suffices general : ∀ before : List (List Cell),
      (messages.flatMap (encode limit)).foldlM Assembly.take (⟨before, none⟩ : Assembly Cell) =
        some ⟨before ++ messages, none⟩ by
    simpa [assemble] using general []
  intro before
  induction messages generalizing before with
  | nil => simp
  | cons message messages ih =>
      rw [List.flatMap_cons, List.foldlM_append, foldlM_encode positive]
      simp [ih]

theorem assemble_flatMap_take {limit : ℕ} (positive : 0 < limit) (messages : List (List Cell))
    (message : List Cell) {index : ℕ} (more : index < count limit message) :
    assemble (messages.flatMap (encode limit) ++ (encode limit message).take index) =
      some (progress limit messages message index) := by
  have whole := assemble_flatMap positive messages
  rw [assemble] at whole ⊢
  rw [List.foldlM_append, whole]
  exact foldlM_take positive messages message more

/-- A prefix of a concatenation of nonempty pieces ends inside one piece or after the last. -/
theorem prefix_flatMap {Item Part : Type*} {parts : Item → List Part} {stream : List Part} :
    ∀ {items : List Item}, stream <+: items.flatMap parts →
      stream = items.flatMap parts ∨
        ∃ before item after index, items = before ++ item :: after ∧
          index < (parts item).length ∧
          stream = before.flatMap parts ++ (parts item).take index := by
  intro items
  induction items generalizing stream with
  | nil =>
      intro isPrefix
      left
      simpa using isPrefix
  | cons item items ih =>
      intro isPrefix
      rw [List.flatMap_cons] at isPrefix
      by_cases inside : stream.length < (parts item).length
      · right
        refine ⟨[], item, items, stream.length, by simp, inside, ?_⟩
        have := List.prefix_iff_eq_take.mp isPrefix
        rw [List.take_append_of_le_length (by omega)] at this
        simpa using this
      · have whole : parts item <+: stream :=
          List.prefix_of_prefix_length_le (List.prefix_append _ _) isPrefix (by omega)
        obtain ⟨rest, rfl⟩ := whole
        have restPrefix : rest <+: items.flatMap parts :=
          (List.prefix_append_right_inj _).mp isPrefix
        rcases ih restPrefix with rfl | ⟨before, next, after, index, rfl, bound, rfl⟩
        · left
          simp
        · right
          exact ⟨item :: before, next, after, index, by simp, bound, by simp⟩

/-- Any prefix of the packets of `messages` assembles, to a prefix of the messages and the
first cells of the next one. -/
theorem assemble_prefix {limit : ℕ} (positive : 0 < limit) {messages : List (List Cell)}
    {stream : List (Packet Cell)} (isPrefix : stream <+: messages.flatMap (encode limit)) :
    ∃ assembly, assemble stream = some assembly ∧ assembly.messages <+: messages ∧
      ∀ unfinished ∈ assembly.unfinished, ∃ message,
        assembly.messages ++ [message] <+: messages ∧ unfinished.body <+: message := by
  rcases prefix_flatMap isPrefix with rfl | ⟨before, message, after, index, rfl, bound, rfl⟩
  · exact ⟨_, assemble_flatMap positive messages, List.prefix_rfl, by simp⟩
  · refine ⟨_, assemble_flatMap_take positive before message (by simpa using bound),
      List.prefix_append _ _, ?_⟩
    intro unfinished present
    refine ⟨message, ⟨after, by simp [progress]⟩, ?_⟩
    rcases Nat.eq_zero_or_pos index with rfl | later
    · simp [progress] at present
    · have nonzero : index ≠ 0 := by omega
      simp only [progress, nonzero, if_false, Option.mem_def, Option.some.injEq] at present
      subst present
      exact List.take_prefix _ _

end Packets

end Hermes
