import ArenaServ.EraseLoop
import Mathlib.Algebra.Order.Ring.Int

/-!
# The log of connections

The server remembers when it last took and last rejected a connection of an address. At a new
connection it drops the records that are out of date and looks for a recent one of the same address.
Both go wrong behind a record that is dropped.
-/

namespace ArenaServ

/-- A record of the log, with the address it is kept under. -/
structure ConnectionLogEntry (τ : Type*) where
  addr : UInt32
  lastConnectionTime : τ
  lastRejectionTime : τ
  rejections : ℤ
  deriving DecidableEq, Repr

/-- The log, in the order in which a loop over it goes. -/
structure ConnectionLog (τ : Type*) where
  entries : List (ConnectionLogEntry τ)
  nodup : (entries.map ConnectionLogEntry.addr).Nodup

/-- `IPAddress::GetString`. -/
def addressText (address : UInt32) : String :=
  toString ((address &&& 0xFF000000) >>> 24) ++ "." ++
    toString ((address &&& 0x00FF0000) >>> 16) ++ "." ++
    toString ((address &&& 0x0000FF00) >>> 8) ++ "." ++ toString (address &&& 0x000000FF)

/-- What is said of a record that is dropped. -/
def ConnectionLogEntry.warning {τ : Type*} (entry : ConnectionLogEntry τ) : Option String :=
  if entry.rejections > 1 then
    some ("Connections from " ++ addressText entry.addr ++ " were rejected (" ++
      toString entry.rejections ++ "x)")
  else if entry.rejections = 1 then
    some ("Connection from " ++ addressText entry.addr ++ " was rejected (1x)")
  else none

namespace ConnectionLog

/-- What the scan for a new connection gives. -/
structure Scan (τ : Type*) where
  throttle : Bool
  log : ConnectionLog τ
  warnings : List String

section Times
variable {τ : Type*} [LinearOrder τ] [Add τ] [IntCast τ]

/-- Out of date: neither a recent connection nor a recent rejection. -/
def expired (reconnectLimit : ℤ) (now : τ) (entry : ConnectionLogEntry τ) : Bool :=
  entry.lastConnectionTime + (reconnectLimit : τ) < now &&
    entry.lastRejectionTime + ((30 : ℤ) : τ) < now

/-- A recent connection of an address. -/
def recent (reconnectLimit : ℤ) (now : τ) (remoteAddr : UInt32) (entry : ConnectionLogEntry τ) :
    Bool :=
  entry.addr == remoteAddr && now ≤ entry.lastConnectionTime + (reconnectLimit : τ)

/-- The scan of `EOServer::Tick`. The record behind one that is dropped is not looked at. -/
def scan (reconnectLimit : ℤ) (now : τ) (remoteAddr : UInt32) (log : ConnectionLog τ) : Scan τ where
  throttle := (Sweep.all (expired reconnectLimit now) log.entries).visited.any
    (recent reconnectLimit now remoteAddr)
  log :=
    { entries := (Sweep.all (expired reconnectLimit now) log.entries).kept
      nodup := log.nodup.sublist (Sweep.kept_sublist.map ConnectionLogEntry.addr) }
  warnings := (Sweep.all (expired reconnectLimit now) log.entries).erased.filterMap
    ConnectionLogEntry.warning

/-- A connection is throttled for a recent one of its address, and exactly the records that are out
of date are dropped. -/
structure ScanExact (reconnectLimit : ℤ) (now : τ) (remoteAddr : UInt32) (log : ConnectionLog τ) :
    Prop where
  throttle_iff : (log.scan reconnectLimit now remoteAddr).throttle = true ↔
    ∃ entry ∈ log.entries, entry.addr = remoteAddr ∧
      now ≤ entry.lastConnectionTime + (reconnectLimit : τ)
  mem_log_iff : ∀ entry, entry ∈ (log.scan reconnectLimit now remoteAddr).log.entries ↔
    entry ∈ log.entries ∧ ¬expired reconnectLimit now entry

variable {reconnectLimit : ℤ} {now : τ} {remoteAddr : UInt32} {log : ConnectionLog τ}
  {entry : ConnectionLogEntry τ}

theorem recent_iff : recent reconnectLimit now remoteAddr entry = true ↔
    entry.addr = remoteAddr ∧ now ≤ entry.lastConnectionTime + (reconnectLimit : τ) := by
  simp [recent]

theorem not_expired_of_recent (h : recent reconnectLimit now remoteAddr entry = true) :
    expired reconnectLimit now entry = false := by
  have hle := (recent_iff.1 h).2
  simp [expired, not_lt_of_ge hle]

/-- An address has one record. -/
theorem pairwise_recent : log.entries.Pairwise fun a b =>
    recent reconnectLimit now remoteAddr a = true →
      recent reconnectLimit now remoteAddr b = false := by
  apply (List.pairwise_map.1 log.nodup).imp
  intro a b hne ha
  apply Bool.eq_false_iff.2
  intro hb
  exact hne ((recent_iff.1 ha).1.trans (recent_iff.1 hb).1.symm)

theorem mem_log_iff_apart :
    (∀ entry, entry ∈ (log.scan reconnectLimit now remoteAddr).log.entries ↔
      entry ∈ log.entries ∧ ¬expired reconnectLimit now entry) ↔
      Sweep.Apart (expired reconnectLimit now) (expired reconnectLimit now) log.entries := by
  rw [← Sweep.kept_all_iff]
  constructor
  · intro h entry hkept
    exact Bool.eq_false_iff.2 ((h entry).1 hkept).2
  · intro h entry
    constructor
    · intro hkept
      exact ⟨Sweep.kept_sublist.subset hkept, Bool.eq_false_iff.1 (h entry hkept)⟩
    · rintro ⟨hmem, hnot⟩
      have hfilter : entry ∈ log.entries.filter fun a => !expired reconnectLimit now a :=
        List.mem_filter.2 ⟨hmem, by simpa using hnot⟩
      rw [← Sweep.filter_kept_run] at hfilter
      exact (List.mem_filter.1 hfilter).1

theorem throttle_iff_any :
    ((log.scan reconnectLimit now remoteAddr).throttle = true ↔
      ∃ entry ∈ log.entries, entry.addr = remoteAddr ∧
        now ≤ entry.lastConnectionTime + (reconnectLimit : τ)) ↔
      (log.scan reconnectLimit now remoteAddr).throttle =
        log.entries.any (recent reconnectLimit now remoteAddr) := by
  have hany : log.entries.any (recent reconnectLimit now remoteAddr) = true ↔
      ∃ entry ∈ log.entries, entry.addr = remoteAddr ∧
        now ≤ entry.lastConnectionTime + (reconnectLimit : τ) := by
    rw [List.any_eq_true]
    simp only [recent_iff]
  rw [← hany, ← Bool.eq_iff_iff]

/-- The scan is exact if and only if behind a record that is out of date there is neither another
one nor the recent record of the address. -/
theorem scanExact_iff :
    log.ScanExact reconnectLimit now remoteAddr ↔
      Sweep.Apart (expired reconnectLimit now) (expired reconnectLimit now) log.entries ∧
        Sweep.Apart (expired reconnectLimit now) (recent reconnectLimit now remoteAddr)
          log.entries := by
  have hvisited := fun h => Sweep.any_visited_all (p := expired reconnectLimit now)
    (fun _ => not_expired_of_recent) (@pairwise_recent τ _ _ _ reconnectLimit now remoteAddr log) h
  constructor
  · rintro ⟨hthrottle, hlog⟩
    have hapart := mem_log_iff_apart.1 hlog
    exact ⟨hapart, (hvisited hapart).1 (throttle_iff_any.1 hthrottle)⟩
  · rintro ⟨hapart, hrecent⟩
    exact ⟨throttle_iff_any.2 ((hvisited hapart).2 hrecent), mem_log_iff_apart.2 hapart⟩

end Times

/-- The record of an address that is out of date, and behind it that of one that has just
connected. -/
def twoAddresses : ConnectionLog ℤ :=
  ⟨[⟨1, 0, 0, 0⟩, ⟨2, 100, 0, 0⟩], by decide⟩

/-- The record of the address is behind one that is dropped: the connection is not throttled. -/
theorem not_scanExact_twoAddresses :
    ⟨2, 100, 0, 0⟩ ∈ twoAddresses.entries ∧ (105 : ℤ) ≤ 100 + 10 ∧
      (twoAddresses.scan 10 105 2).throttle = false ∧ ¬twoAddresses.ScanExact 10 105 2 := by
  have hthrottle : (twoAddresses.scan 10 105 2).throttle = false := by decide
  refine ⟨by decide, by decide, hthrottle, ?_⟩
  intro h
  have htrue := h.throttle_iff.2 ⟨⟨2, 100, 0, 0⟩, by decide, rfl, by decide⟩
  rw [hthrottle] at htrue
  cases htrue

end ConnectionLog

end ArenaServ
