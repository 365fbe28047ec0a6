import FastapiProject.PublisherConnection

set_option autoImplicit false

/-!
# One connection, and channels that are its own

The two tests of `_get_channel` run under the lock with an await after each. What carries
them is that a connection other than `_connection` is closed in every state.
-/
namespace FastapiProject.PublisherDiscipline
open PythonExceptions IndexedLists MachineRuns PublisherConnection

section Usable
variable {s : State} {c : ℕ}

theorem connectionIsClosed_iff (s : State) (c : ℕ) :
    s.connectionIsClosed c = false ↔ s.connectionOpen c := by
  rw [State.connectionIsClosed, State.connectionOpen]
  cases s.connections[c]? with
  | none => simp
  | some closed => simp

theorem usableConnection_iff : s.usableConnection = some c ↔
    s.connection = some c ∧ s.connectionOpen c := by
  rw [State.usableConnection, Option.filter_eq_some_iff, Bool.not_eq_true', connectionIsClosed_iff]

theorem usableChannel_open {ch : ℕ} (usable : s.usableChannel = some ch) :
    ∃ c, s.channels[ch]? = some ⟨c, false⟩ ∧ s.connectionOpen c := by
  rw [State.usableChannel, Option.filter_eq_some_iff, Bool.not_eq_true', State.channelIsClosed] at usable
  obtain ⟨-, isOpen⟩ := usable
  split at isOpen
  · rename_i channel at_ch
    rw [Bool.or_eq_false_iff, connectionIsClosed_iff] at isOpen
    refine ⟨channel.connection, ?_, isOpen.2⟩
    rw [at_ch, ← isOpen.1]
  · cases isOpen

theorem addConnection_open {d : ℕ} (isOpen : s.addConnection.connectionOpen d) :
    s.connectionOpen d ∨ d = s.connections.length := by
  rcases getElem?_concat_cases isOpen with old | ⟨new, -⟩
  · exact .inl old
  · exact .inr new

theorem closeConnection_open {d : ℕ} (isOpen : (s.closeConnection c).connectionOpen d) :
    d ≠ c ∧ s.connectionOpen d := by
  rcases getElem?_set_cases isOpen with ⟨-, ⟨⟩⟩ | ⟨other, old⟩
  exact ⟨other, old⟩

end Usable

/-- No connection but `_connection` is open, and what a call under the lock has learnt of
them is still so. -/
structure Inv (s : State) : Prop where
  held : ∀ c, s.connectionOpen c → s.connection = some c
  alone : ∀ (i j : ℕ) p q, s.publishes[i]? = some p → s.publishes[j]? = some q →
    p.holdsLock = true → q.holdsLock = true → i = j
  connecting : ∀ i : ℕ, s.publishes[i]? = some .connecting → ∀ c, ¬ s.connectionOpen c
  opening : ∀ (i : ℕ) c, s.publishes[i]? = some (.openingChannel c) → s.connection = some c

def OthersOut (s : State) (i : ℕ) : Prop :=
  ∀ (j : ℕ) q, j ≠ i → s.publishes[j]? = some q → q.holdsLock = false

def Owned (s : State) (p : Publish) : Prop :=
  ∀ ch : ℕ, p = .declaring ch →
    ∃ c closed, s.connection = some c ∧ s.channels[ch]? = some ⟨c, closed⟩

def Returned (s u : State) : Prop :=
  ∀ i ch : ℕ, u.publishes[i]? = some (.declaring ch) → s.publishes[i]? ≠ some (.declaring ch) →
    ∃ c closed, u.connection = some c ∧ u.channels[ch]? = some ⟨c, closed⟩

/-- At most one connection is open, and a channel just returned is on `_connection`. -/
structure Disciplined (s : State) (_ : Label) (u : State) : Prop where
  single : ∀ c d, u.connectionOpen c → u.connectionOpen d → c = d
  returned : Returned s u

section Invariant
variable {s u : State} {i : ℕ} {p : Publish} {l : Label}

theorem inv_initial : Inv initial := by
  constructor
  · rintro c ⟨⟩
  · rintro i j p q ⟨⟩
  · rintro i ⟨⟩
  · rintro i c ⟨⟩

theorem out_of_free (free : s.lockIsFree = true) (i : ℕ) : OthersOut s i := by
  intro j q _ at_j
  have out := List.all_eq_true.mp free q (List.mem_of_getElem? at_j)
  rwa [Bool.not_eq_true'] at out

theorem Inv.out (inv : Inv s) (at_i : s.publishes[i]? = some p) (holds : p.holdsLock = true) :
    OthersOut s i := by
  intro j q other at_j
  by_contra holds'
  rw [Bool.not_eq_false] at holds'
  exact other (inv.alone j i q p at_j at_i holds' holds)

theorem inv_setPublish (held : ∀ c, s.connectionOpen c → s.connection = some c)
    (out : OthersOut s i) (connecting : p = .connecting → ∀ c, ¬ s.connectionOpen c)
    (opening : ∀ c, p = .openingChannel c → s.connection = some c) : Inv (s.setPublish i p) where
  held := held
  alone := by
    intro j k q r at_j at_k holds holds'
    have only (j : ℕ) (q : Publish) (at_j : (s.publishes.set i p)[j]? = some q)
        (holds : q.holdsLock = true) : j = i := by
      rcases getElem?_set_cases at_j with ⟨rfl, -⟩ | ⟨other, before⟩
      · rfl
      · rw [out j q other before] at holds
        cases holds
    rw [only j q at_j holds, only k r at_k holds']
  connecting := by
    intro j at_j
    rcases getElem?_set_cases at_j with ⟨-, rfl⟩ | ⟨other, before⟩
    · exact connecting rfl
    · cases out j _ other before
  opening := by
    intro j c at_j
    rcases getElem?_set_cases at_j with ⟨-, rfl⟩ | ⟨other, before⟩
    · exact opening c rfl
    · cases out j _ other before

theorem Inv.of_holders (inv : Inv s) (connections : u.connections = s.connections)
    (connection : u.connection = s.connection)
    (before : ∀ (j : ℕ) q, u.publishes[j]? = some q → q.holdsLock = true →
      s.publishes[j]? = some q) : Inv u where
  held := by
    intro c isOpen
    rw [State.connectionOpen, connections] at isOpen
    rw [connection]
    exact inv.held c isOpen
  alone := by
    intro j k q r at_j at_k holds holds'
    exact inv.alone j k q r (before j q at_j holds) (before k r at_k holds') holds holds'
  connecting := by
    intro j at_j c isOpen
    rw [State.connectionOpen, connections] at isOpen
    exact inv.connecting j (before j _ at_j rfl) c isOpen
  opening := by
    intro j c at_j
    rw [connection]
    exact inv.opening j c (before j _ at_j rfl)

theorem Inv.leaves (inv : Inv s) (i : ℕ) (quiet : p.holdsLock = false) :
    Inv (s.setPublish i p) := by
  refine inv.of_holders rfl rfl fun j q at_j holds => ?_
  rcases getElem?_set_cases at_j with ⟨-, rfl⟩ | ⟨-, before⟩
  · rw [quiet] at holds
    cases holds
  · exact before

theorem Inv.waits (inv : Inv s) : Inv { s with publishes := s.publishes ++ [.waiting] } := by
  refine inv.of_holders rfl rfl fun j q at_j holds => ?_
  rcases getElem?_concat_cases at_j with old | ⟨-, rfl⟩
  · exact old
  · cases holds

theorem Inv.frame (inv : Inv s) (connections : u.connections = s.connections)
    (connection : u.connection = s.connection) (publishes : u.publishes = s.publishes) : Inv u :=
  inv.of_holders connections connection fun _ _ at_j _ => publishes ▸ at_j

theorem Inv.closeConnection (inv : Inv s) (c : ℕ) : Inv (s.closeConnection c) where
  held := fun d isOpen => inv.held d (closeConnection_open isOpen).2
  alone := inv.alone
  connecting := fun j at_j d isOpen => inv.connecting j at_j d (closeConnection_open isOpen).2
  opening := inv.opening

theorem getChannel_cases (s : State) :
    (∃ ch, s.usableChannel = some ch ∧ s.getChannel = .declaring ch) ∨
    (∃ c, s.connection = some c ∧ s.getChannel = .openingChannel c) ∨
    s.getChannel = .ended (.error .attributeError) := by
  rw [State.getChannel]
  cases usable : s.usableChannel with
  | some ch => exact .inl ⟨ch, rfl, rfl⟩
  | none =>
    cases held : s.connection with
    | some c => exact .inr (.inl ⟨c, rfl, rfl⟩)
    | none => exact .inr (.inr rfl)

theorem inv_getChannel (held : ∀ c, s.connectionOpen c → s.connection = some c)
    (out : OthersOut s i) : Inv (s.setPublish i s.getChannel) ∧ Owned s s.getChannel := by
  rcases getChannel_cases s with ⟨ch, usable, found⟩ | ⟨c, current, opens⟩ | fails
  · rw [found]
    obtain ⟨c, at_ch, isOpen⟩ := usableChannel_open usable
    refine ⟨inv_setPublish held out (by rintro ⟨⟩) (by rintro c ⟨⟩), ?_⟩
    rintro ch' ⟨⟩
    exact ⟨c, false, held c isOpen, at_ch⟩
  · rw [opens]
    refine ⟨inv_setPublish held out (by rintro ⟨⟩) ?_, by rintro ch ⟨⟩⟩
    rintro d ⟨⟩
    exact current
  · rw [fails]
    exact ⟨inv_setPublish held out (by rintro ⟨⟩) (by rintro c ⟨⟩), by rintro ch ⟨⟩⟩

theorem inv_getConnection (inv : Inv s) (out : OthersOut s i) :
    Inv (s.setPublish i s.getConnection) ∧ Owned s s.getConnection := by
  rw [State.getConnection]
  cases usable : s.usableConnection with
  | some c => exact inv_getChannel inv.held out
  | none =>
    refine ⟨inv_setPublish inv.held out (fun _ c isOpen => ?_) (by rintro c ⟨⟩), by rintro ch ⟨⟩⟩
    have usable' := usableConnection_iff.mpr ⟨inv.held c isOpen, isOpen⟩
    rw [usable] at usable'
    cases usable'

theorem addConnection_held (inv : Inv s) (at_i : s.publishes[i]? = some .connecting) (c : ℕ)
    (isOpen : s.addConnection.connectionOpen c) : s.addConnection.connection = some c := by
  rcases addConnection_open isOpen with old | rfl
  · exact absurd old (inv.connecting i at_i c)
  · rfl

theorem step_inv (inv : Inv s) (hs : PublisherStep s l u) : Inv u := by
  cases hs with
  | waits => exact inv.waits
  | leaves quiet silent leaving => exact inv.leaves _ quiet
  | @locks i free => exact (inv_getConnection inv (out_of_free free i)).1
  | connected at_i =>
    exact (inv_getChannel (addConnection_held inv at_i) (inv.out at_i rfl)).1
  | @opened i c at_i =>
    have added : Inv (s.addChannel c) := inv.frame rfl rfl rfl
    exact added.leaves i rfl
  | @connectionClosed j c at_j => exact (inv.closeConnection c).frame rfl rfl rfl
  | connectionLost => exact inv.closeConnection _
  | closeStarts => exact inv.frame rfl rfl rfl
  | channelClosed at_j => exact inv.frame rfl rfl rfl
  | channelCloseRaises at_j => exact inv.frame rfl rfl rfl
  | connectionCloseRaises at_j => exact inv.frame rfl rfl rfl
  | channelLost => exact inv.frame rfl rfl rfl

theorem returned_unmoved (same : u.publishes = s.publishes) : Returned s u := by
  intro i ch at_i new
  rw [same] at at_i
  exact absurd at_i new

theorem returned_moved {w : State} (same : w.publishes = s.publishes) (owned : Owned w p) :
    Returned s (w.setPublish i p) := by
  intro j ch at_j new
  rcases getElem?_set_cases at_j with ⟨-, declaring⟩ | ⟨-, before⟩
  · exact owned ch declaring.symm
  · rw [same] at before
    exact absurd before new

theorem addChannel_owned (inv : Inv s) {c : ℕ} (at_i : s.publishes[i]? = some (.openingChannel c)) :
    Owned (s.addChannel c) (.declaring s.channels.length) := by
  rintro ch ⟨⟩
  exact ⟨c, false, inv.opening i c at_i, List.getElem?_concat_length⟩

theorem step_returned (inv : Inv s) (hs : PublisherStep s l u) : Returned s u := by
  cases hs with
  | waits =>
    intro i ch at_i new
    rcases getElem?_concat_cases at_i with old | ⟨-, ⟨⟩⟩
    exact absurd old new
  | leaves quiet silent leaving => exact returned_moved rfl fun ch declaring => absurd declaring (silent ch)
  | @locks i free => exact returned_moved rfl (inv_getConnection inv (out_of_free free i)).2
  | @connected i at_i =>
    have owned := (inv_getChannel (addConnection_held inv at_i) (inv.out at_i rfl)).2
    exact returned_moved rfl owned
  | @opened i c at_i => exact returned_moved rfl (addChannel_owned inv at_i)
  | _ => exact returned_unmoved rfl

theorem step_disciplined (inv : Inv s) (hs : PublisherStep s l u) : Disciplined s l u where
  single := by
    intro c d c_open d_open
    have inv' := step_inv inv hs
    exact Option.some.inj ((inv'.held c c_open).symm.trans (inv'.held d d_open))
  returned := step_returned inv hs

end Invariant

/-- Every run of the publisher keeps to one connection, and to its channels. -/
theorem publisher_disciplined {ls : List Label} {u : State} (run : Runs step initial ls u) :
    Along step Disciplined initial ls u :=
  run.imp_of_invariant Inv inv_initial
    (fun _ _ _ inv hs _ => step_inv inv (step_publisherStep hs))
    (fun _ _ _ inv hs _ => step_disciplined inv (step_publisherStep hs))

section Examples

def publishTwice : List Label :=
  [.publish, .lockEnds 0 (.ok ()), .connectEnds 0 (.ok ()), .channelEnds 0 (.ok ()),
    .declareExchangeEnds 0 (.ok ()), .publishEnds 0 (.ok ()), .connectionLost 0, .publish,
    .lockEnds 1 (.ok ()), .connectEnds 1 (.ok ()), .channelEnds 1 (.ok ())]

theorem publishTwice_disciplined : ∃ u, Along step Disciplined initial publishTwice u ∧
    u.connectionOpen 1 := by
  have runs : ∃ u, Runs step initial publishTwice u ∧ u.connectionOpen 1 :=
    ⟨_, Runs.of_execute rfl, by decide⟩
  obtain ⟨u, run, isOpen⟩ := runs
  exact ⟨u, publisher_disciplined run, isOpen⟩

end Examples

end FastapiProject.PublisherDiscipline
