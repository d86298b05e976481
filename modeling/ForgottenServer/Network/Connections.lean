import Mathlib

/-! # The connections of the server

`ConnectionManager` keeps the set of the connections and, for each address, how many of them are tracked under it. The
address is remembered on the connection, also after the manager has dropped it. A count is a natural number: it is never
more than the connections that exist. -/

namespace ForgottenServer.Connections

abbrev Connection := Nat

/-- An IPv4 address. 0 is none. -/
abbrev Ip := UInt32

/-- `created` counts the connections that were made: the next one is a new object. -/
structure ConnectionManager where
  connections : Finset Connection := ∅
  ipConnectionCount : Ip → Option Nat := fun _ => none
  trackedIp : Connection → Ip := fun _ => 0
  created : Nat := 0

namespace ConnectionManager

variable (m : ConnectionManager)

/-- `maximumConnections` is the setting `MAX_CONNECTIONS`. -/
def createConnection (maximumConnections : Int) : ConnectionManager × Option Connection :=
  if 0 < maximumConnections ∧ maximumConnections ≤ m.connections.card then (m, none)
  else
    ({ m with
        connections := insert m.created m.connections
        trackedIp := Function.update m.trackedIp m.created 0
        created := m.created + 1 },
      some m.created)

/-- The entry of an address without one of its connections. -/
def dropCount (ip : Ip) : ConnectionManager :=
  match m.ipConnectionCount ip with
  | none => m
  | some count =>
    { m with ipConnectionCount := Function.update m.ipConnectionCount ip (if count ≤ 1 then none else some (count - 1)) }

def releaseConnection : Option Connection → ConnectionManager
  | none => m
  | some connection =>
    if connection ∈ m.connections then
      let m' := { m with connections := m.connections.erase connection }
      if m.trackedIp connection ≠ 0 then m'.dropCount (m.trackedIp connection) else m'
    else m

def closeAll : ConnectionManager := { m with connections := ∅, ipConnectionCount := fun _ => none }

def getConnectionCountForIP (ip : Ip) : Nat := (m.ipConnectionCount ip).getD 0

/-- `ipConnectionCount[ip]` makes an entry if there is none. The result is what is returned and `currentCount`.
`configuredLimit` is the setting `MAX_CONNECTIONS_PER_IP`. -/
def trackIPConnection (configuredLimit : Int) (connection : Option Connection) (ip : Ip) :
    ConnectionManager × Bool × Nat :=
  match connection with
  | none => (m, false, 0)
  | some connection =>
    if ip = 0 then (m, false, 0)
    else if connection ∉ m.connections ∨ m.trackedIp connection ≠ 0 then (m, false, 0)
    else
      let count := m.getConnectionCountForIP ip
      if 0 < configuredLimit ∧ configuredLimit ≤ count then
        ({ m with ipConnectionCount := Function.update m.ipConnectionCount ip (some count) }, false, count)
      else
        ({ m with
            ipConnectionCount := Function.update m.ipConnectionCount ip (some (count + 1))
            trackedIp := Function.update m.trackedIp connection ip },
          true, count + 1)

/-- The connections of the set that are tracked under an address. -/
def trackedUnder (ip : Ip) : Finset Connection :=
  m.connections.filter fun connection => m.trackedIp connection ≠ 0 ∧ m.trackedIp connection = ip

end ConnectionManager

/-- A call of the manager. -/
inductive Call where
  | createConnection (maximumConnections : Int)
  | trackIPConnection (connection : Option Connection) (ip : Ip)
  | releaseConnection (connection : Option Connection)
  | closeAll

namespace ConnectionManager

def step (configuredLimit : Int) (m : ConnectionManager) : Call → ConnectionManager
  | .createConnection maximumConnections => (m.createConnection maximumConnections).1
  | .trackIPConnection connection ip => (m.trackIPConnection configuredLimit connection ip).1
  | .releaseConnection connection => m.releaseConnection connection
  | .closeAll => m.closeAll

def run (configuredLimit : Int) (calls : List Call) : ConnectionManager := calls.foldl (step configuredLimit) {}

end ConnectionManager

/-! ## The accounts -/

/-- The entry of an address with some connections: there is none without a connection. -/
def entryOf (count : Nat) : Option Nat := if count = 0 then none else some count

@[simp] theorem entryOf_zero : entryOf 0 = none := rfl

@[simp] theorem entryOf_succ (n : Nat) : entryOf (n + 1) = some (n + 1) := rfl

@[simp] theorem getD_entryOf (n : Nat) : (entryOf n).getD 0 = n := by cases n <;> rfl

/-- Every entry counts the connections that are tracked under its address. -/
structure Accounted (configuredLimit : Int) (m : ConnectionManager) : Prop where
  entry : ∀ ip, m.ipConnectionCount ip = entryOf (m.trackedUnder ip).card
  le : ∀ ip, (m.trackedUnder ip).card ≤ configuredLimit
  lt_created : ∀ connection ∈ m.connections, connection < m.created

namespace Accounted

variable {configuredLimit : Int} {m : ConnectionManager}

theorem count_eq (h : Accounted configuredLimit m) (ip : Ip) :
    m.getConnectionCountForIP ip = (m.trackedUnder ip).card := by
  rw [ConnectionManager.getConnectionCountForIP, h.entry, getD_entryOf]

/-- Where the tracked connections stay the same, so do the accounts. -/
theorem congr (h : Accounted configuredLimit m) {m' : ConnectionManager}
    (hcount : m'.ipConnectionCount = m.ipConnectionCount) (htracked : ∀ ip, m'.trackedUnder ip = m.trackedUnder ip)
    (hlt : ∀ connection ∈ m'.connections, connection < m'.created) : Accounted configuredLimit m' := by
  refine ⟨fun ip => ?_, fun ip => ?_, hlt⟩
  · rw [hcount, htracked, h.entry]
  · rw [htracked]
    exact h.le ip

theorem new (hlimit : 0 < configuredLimit) : Accounted configuredLimit {} :=
  ⟨fun _ => rfl, fun _ => hlimit.le, fun _ h => absurd h (Finset.notMem_empty _)⟩

/-- A new connection is not tracked. -/
theorem createConnection (h : Accounted configuredLimit m) (maximumConnections : Int) :
    Accounted configuredLimit (m.createConnection maximumConnections).1 := by
  rw [ConnectionManager.createConnection]
  split
  · exact h
  · refine h.congr rfl (fun ip => ?_) fun connection hmem => ?_
    · ext connection
      simp only [ConnectionManager.trackedUnder, Finset.mem_filter, Finset.mem_insert]
      by_cases hnew : connection = m.created
      · have hnot : connection ∉ m.connections := fun hmem => (h.lt_created _ hmem).ne hnew
        subst hnew
        simp [hnot]
      · simp [hnew]
    · obtain rfl | hmem := Finset.mem_insert.mp hmem
      · exact Nat.lt_succ_self _
      · exact Nat.lt_succ_of_lt (h.lt_created _ hmem)

theorem closeAll (h : Accounted configuredLimit m) : Accounted configuredLimit m.closeAll := by
  refine ⟨fun _ => rfl, fun ip => ?_, fun _ hmem => absurd hmem (Finset.notMem_empty _)⟩
  exact (Int.natCast_nonneg _).trans (h.le ip)

theorem dropCount_entry {m : ConnectionManager} {ip : Ip} {n : Nat} (h : m.ipConnectionCount ip = entryOf n) :
    (m.dropCount ip).ipConnectionCount = Function.update m.ipConnectionCount ip (entryOf (n - 1)) := by
  rw [ConnectionManager.dropCount, h]
  cases n with
  | zero => exact (Function.update_eq_self_iff.mpr h.symm).symm
  | succ n => cases n <;> rfl

theorem dropCount_same (m : ConnectionManager) (ip : Ip) :
    (m.dropCount ip).connections = m.connections ∧ (m.dropCount ip).trackedIp = m.trackedIp ∧
    (m.dropCount ip).created = m.created := by
  rw [ConnectionManager.dropCount]
  split <;> exact ⟨rfl, rfl, rfl⟩

theorem trackedUnder_congr {m m' : ConnectionManager} (hset : m'.connections = m.connections)
    (hip : m'.trackedIp = m.trackedIp) (ip : Ip) : m'.trackedUnder ip = m.trackedUnder ip := by
  rw [ConnectionManager.trackedUnder, ConnectionManager.trackedUnder, hset, hip]

/-- One connection less is tracked under its address, and as many as before under any other one. -/
theorem trackedUnder_erase (m : ConnectionManager) (connection : Connection) (ip : Ip) :
    ({ m with connections := m.connections.erase connection } : ConnectionManager).trackedUnder ip =
      (m.trackedUnder ip).erase connection := by
  rw [ConnectionManager.trackedUnder, ConnectionManager.trackedUnder, Finset.filter_erase]

theorem mem_trackedUnder {m : ConnectionManager} {connection : Connection} {ip : Ip} :
    connection ∈ m.trackedUnder ip ↔
      connection ∈ m.connections ∧ m.trackedIp connection ≠ 0 ∧ m.trackedIp connection = ip := Finset.mem_filter

theorem releaseConnection (h : Accounted configuredLimit m) (connection : Option Connection) :
    Accounted configuredLimit (m.releaseConnection connection) := by
  cases connection with
  | none => exact h
  | some connection =>
    rw [ConnectionManager.releaseConnection]
    split
    · next hmem =>
      have hlt : ∀ other ∈ m.connections.erase connection, other < m.created :=
        fun other hother => h.lt_created other (Finset.mem_of_mem_erase hother)
      split
      · next htracked =>
        obtain ⟨hset, hips, hcreated⟩ :=
          dropCount_same { m with connections := m.connections.erase connection } (m.trackedIp connection)
        have hentry := dropCount_entry (m := { m with connections := m.connections.erase connection })
          (h.entry (m.trackedIp connection))
        have hunder := fun ip => (trackedUnder_congr hset hips ip).trans (trackedUnder_erase m connection ip)
        refine ⟨fun ip => ?_, fun ip => ?_, ?_⟩
        · rw [hentry, hunder]
          by_cases hip : ip = m.trackedIp connection
          · rw [hip, Function.update_self,
              Finset.card_erase_of_mem (mem_trackedUnder.mpr ⟨hmem, htracked, rfl⟩)]
          · have hnot : connection ∉ m.trackedUnder ip := fun hin => hip (mem_trackedUnder.mp hin).2.2.symm
            rw [Function.update_of_ne hip, Finset.erase_eq_of_notMem hnot]
            exact h.entry ip
        · rw [hunder]
          exact (Int.ofNat_le.mpr (Finset.card_erase_le)).trans (h.le ip)
        · rw [hset, hcreated]
          exact hlt
      · next huntracked =>
        refine h.congr rfl (fun ip => ?_) hlt
        rw [trackedUnder_erase, Finset.erase_eq_of_notMem]
        exact fun hin => huntracked (mem_trackedUnder.mp hin).2.1
    · exact h

/-- A connection that is in the set and not tracked yet. -/
theorem trackedUnder_track {m : ConnectionManager} {connection : Connection} {ip : Ip} (counts : Ip → Option Nat)
    (hmem : connection ∈ m.connections) (hfree : m.trackedIp connection = 0) (hip : ip ≠ 0) (other : Ip) :
    ({ m with ipConnectionCount := counts, trackedIp := Function.update m.trackedIp connection ip } :
      ConnectionManager).trackedUnder other =
      if other = ip then insert connection (m.trackedUnder other) else m.trackedUnder other := by
  ext c
  rw [mem_trackedUnder]
  by_cases hc : c = connection
  · subst hc
    by_cases hother : other = ip
    · simp [hother, hip, hmem]
    · simp [hother, Ne.symm hother, mem_trackedUnder, hfree]
  · by_cases hother : other = ip <;> simp [hc, hother, mem_trackedUnder]

theorem trackIPConnection (h : Accounted configuredLimit m) (hlimit : 0 < configuredLimit)
    (connection : Option Connection) (ip : Ip) :
    Accounted configuredLimit (m.trackIPConnection configuredLimit connection ip).1 := by
  cases connection with
  | none => exact h
  | some connection =>
    rw [ConnectionManager.trackIPConnection]
    split
    · exact h
    · next hip =>
      split
      · exact h
      · next hfree =>
        push Not at hfree
        have hnot : connection ∉ m.trackedUnder ip := fun hin => (mem_trackedUnder.mp hin).2.1 hfree.2
        dsimp only
        rw [h.count_eq]
        split
        · next hfull =>
          -- the limit is positive, so the address has an entry already
          refine h.congr (Function.update_eq_self_iff.mpr ?_) (fun _ => rfl) h.lt_created
          rw [h.entry, entryOf, if_neg (by omega)]
        · next hroom =>
          have hunder := trackedUnder_track (Function.update m.ipConnectionCount ip
            (some ((m.trackedUnder ip).card + 1))) hfree.1 hfree.2 hip
          refine ⟨fun other => ?_, fun other => ?_, h.lt_created⟩
          · rw [hunder]
            dsimp only
            by_cases hother : other = ip
            · rw [if_pos hother, hother, Function.update_self, Finset.card_insert_of_notMem hnot, entryOf_succ]
            · rw [if_neg hother, Function.update_of_ne hother]
              exact h.entry other
          · rw [hunder]
            by_cases hother : other = ip
            · rw [if_pos hother, hother, Finset.card_insert_of_notMem hnot]
              omega
            · rw [if_neg hother]
              exact h.le other

theorem step (h : Accounted configuredLimit m) (hlimit : 0 < configuredLimit) (call : Call) :
    Accounted configuredLimit (m.step configuredLimit call) := by
  cases call with
  | createConnection maximumConnections => exact h.createConnection maximumConnections
  | trackIPConnection connection ip => exact h.trackIPConnection hlimit connection ip
  | releaseConnection connection => exact h.releaseConnection connection
  | closeAll => exact h.closeAll

theorem run (hlimit : 0 < configuredLimit) (calls : List Call) :
    Accounted configuredLimit (ConnectionManager.run configuredLimit calls) := by
  induction calls using List.reverseRecOn with
  | nil => exact new hlimit
  | append_singleton calls call ih =>
    rw [ConnectionManager.run, List.foldl_append]
    exact ih.step hlimit call

end Accounted

/-- After any calls, the count of an address is the number of connections that are tracked under it. It is not above the
limit, and an address without such a connection has no entry. -/
theorem counts_tracked (configuredLimit : Int) (hlimit : 0 < configuredLimit) (calls : List Call) (ip : Ip) :
    let m := ConnectionManager.run configuredLimit calls
    m.getConnectionCountForIP ip = (m.trackedUnder ip).card ∧ (m.getConnectionCountForIP ip : Int) ≤ configuredLimit ∧
      (m.trackedUnder ip = ∅ → m.ipConnectionCount ip = none) := by
  have h := Accounted.run hlimit calls
  refine ⟨h.count_eq ip, ?_, fun hempty => ?_⟩
  · rw [h.count_eq]
    exact h.le ip
  · rw [h.entry, hempty]
    rfl

/-- Of two connections from one address the second is refused. The first is released twice. -/
def turnedAway : List Call :=
  [.createConnection 2000, .createConnection 2000, .trackIPConnection (some 0) 7, .trackIPConnection (some 1) 7,
    .trackIPConnection (some 0) 8, .releaseConnection (some 0), .releaseConnection (some 0), .closeAll,
    .releaseConnection (some 1)]

theorem counts_tracked_turnedAway :
    let m := ConnectionManager.run 1 turnedAway
    m.getConnectionCountForIP 7 = (m.trackedUnder 7).card ∧ (m.getConnectionCountForIP 7 : Int) ≤ 1 ∧
      (m.trackedUnder 7 = ∅ → m.ipConnectionCount 7 = none) :=
  counts_tracked 1 (by decide) turnedAway 7

end ForgottenServer.Connections
