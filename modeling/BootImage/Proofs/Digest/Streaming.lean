import BootImage.Digest.Hasher
import BootImage.Proofs.Bytes
import BootImage.Proofs.Digest.Arithmetic
import Mathlib.Data.Option.Basic

/-! Named hashers against a ledger of the bytes that each has absorbed. The ledger knows neither
blocks nor chunks: it concatenates, and reads digests of whole messages. A run over hashers gives
the replies of the run over the ledger, and a hasher's three fields are functions of its bytes. -/

namespace BootImage.Digest

def whole (m : Bytes) : Bytes := m.take (m.length - m.length % blockSize)

def rest (m : Bytes) : Bytes := m.drop (m.length - m.length % blockSize)

theorem whole_append_rest (m : Bytes) : whole m ++ rest m = m := List.take_append_drop _ m

theorem length_whole (m : Bytes) : (whole m).length = m.length - m.length % blockSize := by
  rw [whole, List.length_take]
  omega

theorem blockSize_dvd_whole (m : Bytes) : blockSize ∣ (whole m).length := by
  rw [length_whole, blockSize]
  omega

/-- More bytes fill up what is left; the full blocks so far stay as they are. -/
theorem cut_append (m data : Bytes) :
    whole (m ++ data) = whole m ++ whole (rest m ++ data) ∧
    rest (m ++ data) = rest (rest m ++ data) := by
  have hsplit : m ++ data = whole m ++ (rest m ++ data) := by
    rw [← List.append_assoc, whole_append_rest]
  have hrest : (rest m).length = m.length % blockSize := by
    rw [rest, List.length_drop, blockSize]
    omega
  have hcut : (m ++ data).length - (m ++ data).length % blockSize = (whole m).length +
      ((rest m ++ data).length - (rest m ++ data).length % blockSize) := by
    rw [List.length_append, List.length_append, length_whole, hrest, blockSize]
    omega
  constructor
  · rw [whole, hcut, hsplit, List.take_length_add_append, ← whole]
  · rw [rest, hcut, hsplit, List.drop_length_add_append, ← rest]

structure Tracks (m : Bytes) (h : Hasher) : Prop where
  length_eq : h.length = m.length
  pending_eq : h.pending = rest m
  registers_eq : h.registers = (Bytes.groups blockSize (whole m)).foldl absorb .initial

theorem tracks_new : Tracks [] {} := by
  constructor
  · rfl
  · rfl
  · rw [whole, List.take_nil, Bytes.groups_nil, List.foldl_nil]

theorem tracks_update {m data : Bytes} {h : Hasher} (ht : Tracks m h) :
    Tracks (m ++ data) (h.update data) := by
  obtain ⟨hlen, hpend, hreg⟩ := ht
  obtain ⟨hwhole, hrest⟩ := cut_append m data
  constructor
  · have hstep : (h.update data).length = h.length + data.length := rfl
    rw [hstep, hlen, List.length_append]
  · rw [hrest, ← hpend]
    rfl
  · have hstep : (h.update data).registers =
        (Bytes.groups blockSize (whole (h.pending ++ data))).foldl absorb h.registers := rfl
    rw [hstep, hpend, hreg, hwhole, Bytes.groups_append (by decide) (blockSize_dvd_whole m),
      List.foldl_append]

theorem words_of_tracks {m : Bytes} {h : Hasher} (ht : Tracks m h) : h.words = words m := by
  obtain ⟨hlen, hpend, hreg⟩ := ht
  have hframe : frame m = whole m ++ (rest m ++ pad m.length) := by
    rw [← List.append_assoc, whole_append_rest, frame]
  rw [words, blocks, hframe, Bytes.groups_append (by decide) (blockSize_dvd_whole m),
    List.foldl_append, ← hreg, ← hpend, ← hlen, Hasher.words]

theorem digest_of_tracks {m : Bytes} {h : Hasher} (ht : Tracks m h) : h.digest = digest m := by
  rw [Hasher.digest, words_of_tracks ht, digest]

/-- The bytes that each named hasher has absorbed. -/
abbrev Ledger := String → Option Bytes

namespace Ledger

def empty : Ledger := fun _ => none

def set (ledger : Ledger) (name : String) (m : Bytes) : Ledger :=
  fun other => if other = name then some m else ledger other

def read (ledger : Ledger) (name : String) (reply : Bytes → HasherReply) :
    Except Refusal HasherReply :=
  match ledger name with
  | some m => .ok (reply m)
  | none => .error (.unknownHasher name)

def offered (data : Option Offer) : Except Refusal Bytes :=
  match data with
  | none => .ok []
  | some offer => if offer.isBlank then .ok [] else offer.bytes?

def next (ledger : Ledger) : HasherEvent → Ledger × Except Refusal HasherReply
  | .create name data =>
    match offered data with
    | .ok content => (ledger.set name content, .ok .done)
    | .error refusal => (ledger, .error refusal)
  | .update name data =>
    match ledger name, data.bytes? with
    | some m, .ok content => (ledger.set name (m ++ content), .ok .done)
    | some _, .error refusal => (ledger, .error refusal)
    | none, _ => (ledger, .error (.unknownHasher name))
  | .copy name target =>
    match ledger name with
    | some m => (ledger.set target m, .ok .done)
    | none => (ledger, .error (.unknownHasher name))
  | .readDigest name => (ledger, ledger.read name fun m => .digest (digest m))
  | .readHex name => (ledger, ledger.read name fun m => .hex (digest m).toHex)
  | .readWords name => (ledger, ledger.read name fun m => .words (words m))
  | .readAttributes name =>
    (ledger, ledger.read name fun _ => .attributes Hasher.algorithm size blockSize)

def run (ledger : Ledger) : List HasherEvent → Ledger × List (Except Refusal HasherReply)
  | [] => (ledger, [])
  | event :: rest =>
    let later := (ledger.next event).1.run rest
    (later.1, (ledger.next event).2 :: later.2)

end Ledger

def Bench.run (bench : Bench) : List HasherEvent → Bench × List (Except Refusal HasherReply)
  | [] => (bench, [])
  | event :: rest =>
    let later := (bench.next event).1.run rest
    (later.1, (bench.next event).2 :: later.2)

/-- The names are the same, and each hasher tracks the bytes of its name. -/
def Represents (ledger : Ledger) (bench : Bench) : Prop :=
  ∀ name, Option.Rel Tracks (ledger name) (bench name)

theorem represents_empty : Represents Ledger.empty Bench.empty := fun _ => .none

theorem represents_set {ledger : Ledger} {bench : Bench} (hr : Represents ledger bench)
    (name : String) {m : Bytes} {h : Hasher} (ht : Tracks m h) :
    Represents (ledger.set name m) (bench.set name h) := by
  intro other
  by_cases hn : other = name
  · rw [Ledger.set, Bench.set, if_pos hn, if_pos hn]
    exact .some ht
  · rw [Ledger.set, Bench.set, if_neg hn, if_neg hn]
    exact hr other

theorem represents_cases {ledger : Ledger} {bench : Bench} (hr : Represents ledger bench)
    (name : String) : (ledger name = none ∧ bench name = none) ∨
      ∃ m h, ledger name = some m ∧ bench name = some h ∧ Tracks m h := by
  have h := hr name
  generalize ledger name = x at h ⊢
  generalize bench name = y at h ⊢
  cases h with
  | some ht => exact Or.inr ⟨_, _, rfl, rfl, ht⟩
  | none => exact Or.inl ⟨rfl, rfl⟩

theorem created_cases (data : Option Offer) :
    (∃ m h, Ledger.offered data = .ok m ∧ Bench.created data = .ok h ∧ Tracks m h) ∨
      ∃ refusal, Ledger.offered data = .error refusal ∧ Bench.created data = .error refusal := by
  cases data with
  | none => exact Or.inl ⟨[], {}, rfl, rfl, tracks_new⟩
  | some offer =>
    by_cases hb : offer.isBlank
    · refine Or.inl ⟨[], {}, ?_, ?_, tracks_new⟩
      · rw [Ledger.offered, if_pos hb]
      · rw [Bench.created, if_pos hb]
    · rw [Ledger.offered, if_neg hb, Bench.created, if_neg hb]
      cases hbytes : offer.bytes? with
      | ok m => exact Or.inl ⟨m, _, rfl, rfl, tracks_update tracks_new⟩
      | error refusal => exact Or.inr ⟨refusal, rfl, rfl⟩

theorem next_create (bench : Bench) (name : String) (data : Option Offer) :
    bench.next (.create name data) = match Bench.created data with
      | .ok h => (bench.set name h, .ok .done)
      | .error refusal => (bench, .error refusal) := by
  rw [Bench.next, Bench.stored]
  cases Bench.created data <;> rfl

theorem next_update (bench : Bench) (name : String) (data : Offer) :
    bench.next (.update name data) = match bench name, data.bytes? with
      | some h, .ok content => (bench.set name (h.update content), .ok .done)
      | some _, .error refusal => (bench, .error refusal)
      | none, _ => (bench, .error (.unknownHasher name)) := by
  rw [Bench.next, Bench.stored, Bench.find]
  cases bench name with
  | none => rfl
  | some h => cases data.bytes? <;> rfl

theorem next_copy (bench : Bench) (name target : String) :
    bench.next (.copy name target) = match bench name with
      | some h => (bench.set target h, .ok .done)
      | none => (bench, .error (.unknownHasher name)) := by
  rw [Bench.next, Bench.stored, Bench.find]
  cases bench name <;> rfl

theorem find_map (bench : Bench) (name : String) (reply : Hasher → HasherReply) :
    (bench.find name).map reply = match bench name with
      | some h => .ok (reply h)
      | none => .error (.unknownHasher name) := by
  rw [Bench.find]
  cases bench name <;> rfl

theorem find_map_represents {ledger : Ledger} {bench : Bench} (hr : Represents ledger bench)
    (name : String) {reply : Bytes → HasherReply} {reply' : Hasher → HasherReply}
    (h : ∀ m h, Tracks m h → reply' h = reply m) :
    (bench.find name).map reply' = ledger.read name reply := by
  rw [find_map, Ledger.read]
  rcases represents_cases hr name with ⟨hl, hb⟩ | ⟨m, s, hl, hb, ht⟩
  · rw [hl, hb]
  · rw [hl, hb]
    exact congrArg Except.ok (h m s ht)

theorem next_represents {ledger : Ledger} {bench : Bench} (hr : Represents ledger bench)
    (event : HasherEvent) :
    Represents (ledger.next event).1 (bench.next event).1 ∧
      (bench.next event).2 = (ledger.next event).2 := by
  cases event with
  | create name data =>
    rw [next_create, Ledger.next]
    rcases created_cases data with ⟨m, h, hl, hb, ht⟩ | ⟨refusal, hl, hb⟩
    · rw [hl, hb]
      exact ⟨represents_set hr name ht, rfl⟩
    · rw [hl, hb]
      exact ⟨hr, rfl⟩
  | update name data =>
    rw [next_update, Ledger.next]
    rcases represents_cases hr name with ⟨hl, hb⟩ | ⟨m, h, hl, hb, ht⟩
    · rw [hl, hb]
      exact ⟨hr, rfl⟩
    · rw [hl, hb]
      cases data.bytes? with
      | ok content => exact ⟨represents_set hr name (tracks_update ht), rfl⟩
      | error refusal => exact ⟨hr, rfl⟩
  | copy name target =>
    rw [next_copy, Ledger.next]
    rcases represents_cases hr name with ⟨hl, hb⟩ | ⟨m, h, hl, hb, ht⟩
    · rw [hl, hb]
      exact ⟨hr, rfl⟩
    · rw [hl, hb]
      exact ⟨represents_set hr target ht, rfl⟩
  | readDigest name =>
    exact ⟨hr, find_map_represents hr name fun m h ht => by rw [digest_of_tracks ht]⟩
  | readHex name =>
    exact ⟨hr, find_map_represents hr name fun m h ht => by rw [digest_of_tracks ht]⟩
  | readWords name =>
    exact ⟨hr, find_map_represents hr name fun m h ht => by rw [words_of_tracks ht]⟩
  | readAttributes name => exact ⟨hr, find_map_represents hr name fun _ _ _ => rfl⟩

/-- The ledger drives the induction: what a run leaves behind is the next event's starting point. -/
theorem run_represents {ledger : Ledger} {bench : Bench} (hr : Represents ledger bench)
    (events : List HasherEvent) :
    Represents (ledger.run events).1 (bench.run events).1 ∧
      (bench.run events).2 = (ledger.run events).2 := by
  induction events generalizing ledger bench with
  | nil => exact ⟨hr, rfl⟩
  | cons event rest ih =>
    obtain ⟨hnext, hreply⟩ := next_represents hr event
    obtain ⟨hrest, hreplies⟩ := ih hnext
    refine ⟨hrest, ?_⟩
    rw [Bench.run, Ledger.run, hreply, hreplies]

/-- The name that an event may bind. -/
def HasherEvent.binds? : HasherEvent → Option String
  | .create name _ => some name
  | .update name _ => some name
  | .copy _ target => some target
  | _ => none

theorem set_of_ne (bench : Bench) {name other : String} (h : Hasher) (hn : some name ≠ some other) :
    bench.set name h other = bench other := by
  rw [Bench.set, if_neg fun he => hn (congrArg some he.symm)]

theorem next_of_not_bound (bench : Bench) (event : HasherEvent) (other : String)
    (h : event.binds? ≠ some other) : (bench.next event).1 other = bench other := by
  cases event with
  | create name data =>
    rw [next_create]
    split
    · exact set_of_ne bench _ h
    · rfl
  | update name data =>
    rw [next_update]
    split
    · exact set_of_ne bench _ h
    · rfl
    · rfl
  | copy name target =>
    rw [next_copy]
    split
    · exact set_of_ne bench _ h
    · rfl
  | readDigest | readHex | readWords | readAttributes => rfl

theorem next_of_refused (bench : Bench) (event : HasherEvent) {refusal : Refusal}
    (h : (bench.next event).2 = .error refusal) : (bench.next event).1 = bench := by
  rw [Bench.next] at h ⊢
  split
  · rfl
  · rfl
  · next hs =>
    rw [hs] at h
    exact absurd h (by simp)

/-- In every state that a run reaches, the hashers stand for the bytes that their names have
absorbed, and every reply of the run is the one that these bytes give. A further event changes at
most the hasher whose name it binds, and nothing when it is refused. -/
theorem run_tracks_absorbed (events : List HasherEvent) :
    Represents (Ledger.empty.run events).1 (Bench.empty.run events).1 ∧
    (Bench.empty.run events).2 = (Ledger.empty.run events).2 ∧
    ∀ event, (∀ other, event.binds? ≠ some other →
        ((Bench.empty.run events).1.next event).1 other = (Bench.empty.run events).1 other) ∧
      ∀ refusal, ((Bench.empty.run events).1.next event).2 = .error refusal →
        ((Bench.empty.run events).1.next event).1 = (Bench.empty.run events).1 := by
  obtain ⟨hrun, hreplies⟩ := run_represents represents_empty events
  refine ⟨hrun, hreplies, fun event => ⟨?_, ?_⟩⟩
  · intro other h
    exact next_of_not_bound _ event other h
  · intro refusal h
    exact next_of_refused _ event h

end BootImage.Digest
