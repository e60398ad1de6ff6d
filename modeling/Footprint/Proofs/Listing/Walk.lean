import Footprint.Exchange.Listing
import Footprint.Proofs.Exchange.Reachable
import Footprint.Settings.File
import Mathlib.Order.Lattice

namespace Footprint

open Exchange

/-- Limits that a settings file may state. -/
structure ListingLimits.Proper (limits : ListingLimits) : Prop where
  default_pos : 1 ≤ limits.defaultLimit
  default_le : limits.defaultLimit ≤ limits.maxLimit

theorem Settings.check_eq_ok {settings result : Settings} :
    settings.check = .ok result ↔ settings.listing.Proper ∧ result = settings := by
  have hproper : settings.listing.Proper ↔ ¬ (settings.listing.defaultLimit = 0 ∨
      settings.listing.maxLimit < settings.listing.defaultLimit) :=
    ⟨fun ⟨hpos, hle⟩ => by omega, fun h => ⟨by omega, by omega⟩⟩
  rw [check, hproper]
  split
  · simp_all
  · simp_all [eq_comm]

theorem Exchange.exists_pageSize {limits : ListingLimits} (h : limits.Proper)
    {limit : Option Nat} (hlimit : limit ≠ some 0) :
    ∃ size, pageSize limits limit = .ok size ∧ 1 ≤ size ∧ size ≤ limits.maxLimit := by
  have hpos := h.default_pos
  have hle := h.default_le
  cases limit with
  | none => exact ⟨_, rfl, hpos, hle⟩
  | some n =>
    cases n with
    | zero => exact absurd rfl hlimit
    | succ n => exact ⟨_, rfl, by omega, Nat.min_le_right _ _⟩

namespace Exchange

/-- The calls that come before a fetch, and the limit it is made with. -/
structure Turn where
  calls : List Call
  limit : Option Nat

/-- A page with the store it was fetched from, its cursor and its limit. -/
structure Visit where
  store : Store
  after : Option Uuid
  limit : Option Nat
  page : StatusPage

def Visit.ids (v : Visit) : List Uuid :=
  v.page.statuses.map (·.id)

/-- Fetches page after page, each from where the one before stopped, until a page names no next one
or the turns are used up. -/
def walk (limits : ListingLimits) (operator : Uuid) (side : Option Side) :
    Store → Option Uuid → List Turn → Except Error (List Visit)
  | _, _, [] => .ok []
  | s, after, turn :: turns => do
    let s := runAll turn.calls s
    let page ← listStatuses s limits operator ⟨side, none, after, turn.limit⟩
    match page.next with
    | none => .ok [⟨s, after, turn.limit, page⟩]
    | some next =>
      let rest ← walk limits operator side s (some next) turns
      .ok (⟨s, after, turn.limit, page⟩ :: rest)

/-- The walk came to its end and was not cut off. -/
def Ended (visits : List Visit) : Prop :=
  ∃ v, visits.getLast? = some v ∧ v.page.next = none

/-- Fetches of which each starts where the one before stopped. -/
inductive Chain (P : Visit → Prop) : Option Uuid → List Visit → Prop
  | unvisited {after} : Chain P after []
  | last {v} (holds : P v) (stops : v.page.next = none) : Chain P v.after [v]
  | more {v next visits} (holds : P v) (goes : v.page.next = some next)
      (rest : Chain P (some next) visits) : Chain P v.after (v :: visits)

/-- The page shows the beginning of what is listed from its cursor on, in the order of a key, and
names the first one left out. -/
structure Cut {κ : Type} [LinearOrder κ] (key : Uuid → κ) (listed : Visit → List Uuid)
    (v : Visit) : Prop where
  sorted : (listed v).Pairwise fun x y => key x < key y
  cursor : ∀ c ∈ v.after, ∀ x ∈ listed v, key c ≤ key x
  split : ∃ rest, listed v = v.ids ++ rest ∧ v.page.next = rest.head?

variable {limits : ListingLimits} {operator : Uuid} {side : Option Side} {s : Store}
variable {after : Option Uuid} {turns : List Turn} {v : Visit} {visits : List Visit}
variable {P : Visit → Prop} {c x next : Uuid}

theorem Ended.rest (h : Ended (v :: visits)) (hnext : v.page.next = some next) :
    Ended visits := by
  obtain ⟨w, hlast, hstops⟩ := h
  cases visits with
  | nil =>
    rw [List.getLast?_singleton, Option.some.injEq] at hlast
    rw [← hlast, hnext] at hstops
    cases hstops
  | cons _ _ => exact ⟨w, by simpa using hlast, hstops⟩

namespace Chain

theorem forall_mem (h : Chain P after visits) : ∀ v ∈ visits, P v := by
  induction h with
  | unvisited => simp
  | last holds => simpa using holds
  | more holds _ _ ih => exact List.forall_mem_cons.2 ⟨holds, ih⟩

theorem imp {Q : Visit → Prop} (h : Chain P after visits) (himp : ∀ v, P v → Q v) :
    Chain Q after visits := by
  induction h with
  | unvisited => exact .unvisited
  | last holds stops => exact .last (himp _ holds) stops
  | more holds goes _ ih => exact .more (himp _ holds) goes ih

/-- Only the page that ends the walk names no next one. -/
theorem exists_last (h : Chain P after visits) (hended : Ended visits) :
    ∃ front last, visits = front ++ [last] ∧ last.page.next = none ∧
      ∀ v ∈ front, v.page.next ≠ none := by
  induction h with
  | unvisited =>
    obtain ⟨_, hlast, _⟩ := hended
    cases hlast
  | @last v _ stops => exact ⟨[], v, rfl, stops, by simp⟩
  | @more v next visits _ goes _ ih =>
    obtain ⟨front, last, rfl, hstops, hfront⟩ := ih (hended.rest goes)
    exact ⟨v :: front, last, rfl, hstops, List.forall_mem_cons.2 ⟨by simp [goes], hfront⟩⟩

end Chain

section

variable {κ : Type} [LinearOrder κ] {key : Uuid → κ} {listed : Visit → List Uuid}

namespace Cut

theorem mem_listed (h : Cut key listed v) (hx : x ∈ v.ids) : x ∈ listed v := by
  obtain ⟨rest, hlisted, -⟩ := h.split
  rw [hlisted]
  exact List.mem_append_left _ hx

theorem next_mem (h : Cut key listed v) (hnext : v.page.next = some next) : next ∈ listed v := by
  obtain ⟨rest, hlisted, hhead⟩ := h.split
  rw [hlisted]
  exact List.mem_append_right _ (List.mem_of_mem_head? (hhead.symm.trans hnext))

theorem ids_sorted (h : Cut key listed v) : v.ids.Pairwise fun x y => key x < key y := by
  obtain ⟨rest, hlisted, -⟩ := h.split
  have hsorted := h.sorted
  rw [hlisted] at hsorted
  exact (List.pairwise_append.1 hsorted).1

theorem lt_next (h : Cut key listed v) (hnext : v.page.next = some next) (hx : x ∈ v.ids) :
    key x < key next := by
  obtain ⟨rest, hlisted, hhead⟩ := h.split
  have hsorted := h.sorted
  rw [hlisted] at hsorted
  have hnext : next ∈ rest := List.mem_of_mem_head? (hhead.symm.trans hnext)
  exact (List.pairwise_append.1 hsorted).2.2 x hx next hnext

/-- What is listed is on the page, or not before the next one. -/
theorem mem_ids_or (h : Cut key listed v) (hx : x ∈ listed v) :
    x ∈ v.ids ∨ ∃ next, v.page.next = some next ∧ key next ≤ key x := by
  obtain ⟨rest, hlisted, hhead⟩ := h.split
  have hsorted := h.sorted
  rw [hlisted] at hx hsorted
  refine (List.mem_append.1 hx).imp_right fun hx => ?_
  cases rest with
  | nil => cases hx
  | cons next rest =>
    refine ⟨next, hhead, ?_⟩
    have hrest := List.pairwise_cons.1 (List.pairwise_append.1 hsorted).2.1
    rcases List.mem_cons.1 hx with rfl | hx
    · exact le_rfl
    · exact (hrest.1 x hx).le

end Cut

namespace Chain

theorem le_cursor (h : Chain (Cut key listed) after visits) (hc : c ∈ after) :
    ∀ v ∈ visits, ∀ d ∈ v.after, key c ≤ key d := by
  induction h generalizing c with
  | unvisited => simp
  | last => simp_all
  | @more v next visits holds goes _ ih =>
    rw [List.forall_mem_cons]
    have hnext : key c ≤ key next := holds.cursor c hc next (holds.next_mem goes)
    exact ⟨by simp_all, fun w hw d hd => hnext.trans (ih rfl w hw d hd)⟩

theorem le_of_mem (h : Chain (Cut key listed) after visits) (hc : c ∈ after)
    (hx : x ∈ visits.flatMap Visit.ids) : key c ≤ key x := by
  induction h generalizing c with
  | unvisited => cases hx
  | last holds _ => exact holds.cursor c hc x (holds.mem_listed (by simpa using hx))
  | @more v next visits holds goes _ ih =>
    rw [List.flatMap_cons, List.mem_append] at hx
    rcases hx with hx | hx
    · exact holds.cursor c hc x (holds.mem_listed hx)
    · exact (holds.cursor c hc next (holds.next_mem goes)).trans (ih rfl hx)

/-- Nothing is returned twice. -/
theorem sorted (h : Chain (Cut key listed) after visits) :
    (visits.flatMap Visit.ids).Pairwise fun x y => key x < key y := by
  induction h with
  | unvisited => exact List.Pairwise.nil
  | last holds _ => simpa using holds.ids_sorted
  | @more v next visits holds goes rest ih =>
    rw [List.flatMap_cons, List.pairwise_append]
    exact ⟨holds.ids_sorted, ih, fun x hx y hy =>
      (holds.lt_next goes hx).trans_le (rest.le_of_mem rfl hy)⟩

theorem nodup (h : Chain (Cut key listed) after visits) : (visits.flatMap Visit.ids).Nodup :=
  h.sorted.imp fun hlt heq => hlt.ne (congrArg key heq)

/-- What every page lists whose cursor does not lie behind it is returned in the end. -/
theorem mem_of_ended (h : Chain (Cut key listed) after visits) (hended : Ended visits)
    (hx : ∀ c ∈ after, key c ≤ key x)
    (hlisted : ∀ v ∈ visits, (∀ c ∈ v.after, key c ≤ key x) → x ∈ listed v) :
    x ∈ visits.flatMap Visit.ids := by
  induction h with
  | unvisited =>
    obtain ⟨_, hlast, _⟩ := hended
    cases hlast
  | last holds stops =>
    rcases holds.mem_ids_or (hlisted _ (by simp) hx) with hx | ⟨next, hnext, -⟩
    · simpa using hx
    · rw [stops] at hnext
      cases hnext
  | @more v next visits holds goes _ ih =>
    rw [List.flatMap_cons, List.mem_append]
    refine (holds.mem_ids_or (hlisted v (by simp) hx)).imp_right fun ⟨_, hnext, hle⟩ => ?_
    rw [goes, Option.some.injEq] at hnext
    subst hnext
    exact ih (hended.rest goes) (by simpa using hle) fun w hw => hlisted w (by simp [hw])

/-- A page that lists nothing cuts the walk off before whatever does not come before its cursor. -/
theorem not_mem_of_empty (h : Chain (Cut key listed) after visits) (hv : v ∈ visits)
    (hc : c ∈ v.after) (hle : key c ≤ key x) (hempty : listed v = []) :
    x ∉ visits.flatMap Visit.ids := by
  induction h with
  | unvisited => cases hv
  | last holds _ =>
    cases List.mem_singleton.1 hv
    intro hx
    have hx := holds.mem_listed (by simpa using hx)
    rw [hempty] at hx
    cases hx
  | @more w next visits holds goes rest ih =>
    rcases List.mem_cons.1 hv with rfl | hv
    · have hnext := holds.next_mem goes
      rw [hempty] at hnext
      cases hnext
    · rw [List.flatMap_cons, List.mem_append, not_or]
      refine ⟨fun hx => ?_, ih hv⟩
      have hlt := (holds.lt_next goes hx).trans_le (rest.le_cursor rfl v hv c hc)
      exact absurd hle hlt.not_ge

end Chain

end

theorem exists_walk (limits : ListingLimits) (operator : Uuid) (side : Option Side)
    (after : Option Uuid) {last : Store} (hs : Reachable s)
    (hfresh : freshAlong s (turns.flatMap (·.calls)))
    (hlast : runAll (turns.flatMap (·.calls)) s = last)
    (hfetch : ∀ s' after, ∀ turn ∈ turns, Reachable s' → Leads s' last →
      ∃ page, listStatuses s' limits operator ⟨side, none, after, turn.limit⟩ = .ok page ∧
        P ⟨s', after, turn.limit, page⟩) :
    ∃ visits, walk limits operator side s after turns = .ok visits ∧ Chain P after visits := by
  induction turns generalizing s after with
  | nil => exact ⟨[], rfl, .unvisited⟩
  | cons turn turns ih =>
    rw [List.flatMap_cons] at hfresh hlast
    rw [freshAlong_append, Bool.and_eq_true] at hfresh
    rw [runAll_append] at hlast
    have hreachable := hs.calls hfresh.1
    have hleads : Leads (runAll turn.calls s) last := hlast ▸ Leads.calls .refl hfresh.2
    obtain ⟨page, hpage, hholds⟩ := hfetch _ after turn (by simp) hreachable hleads
    cases hnext : page.next with
    | none =>
      refine ⟨[⟨_, after, turn.limit, page⟩], ?_, Chain.last hholds hnext⟩
      simp only [walk, hpage, ok_bind, hnext]
    | some next =>
      obtain ⟨visits, hwalk, hchain⟩ := ih (some next) hreachable hfresh.2 hlast
        fun s' after turn hturn => hfetch s' after turn (by simp [hturn])
      refine ⟨⟨_, after, turn.limit, page⟩ :: visits, ?_, Chain.more hholds hnext hchain⟩
      simp only [walk, hpage, ok_bind, hnext, hwalk]

theorem limit_of_walk (h : walk limits operator side s after turns = .ok visits) :
    ∀ v ∈ visits, ∃ turn ∈ turns, v.limit = turn.limit := by
  induction turns generalizing s after visits with
  | nil =>
    cases h
    simp
  | cons turn turns ih =>
    obtain ⟨page, -, h⟩ := bind_eq_ok.1 h
    split at h
    · cases h
      simp
    · obtain ⟨rest, hrest, h⟩ := bind_eq_ok.1 h
      cases h
      rw [List.forall_mem_cons]
      refine ⟨⟨turn, by simp, rfl⟩, fun v hv => ?_⟩
      obtain ⟨turn, hturn, hlimit⟩ := ih hrest v hv
      exact ⟨turn, List.mem_cons_of_mem _ hturn, hlimit⟩

/-- The part of a list that a page with this cursor begins. -/
inductive StartsAt (full : List Status) : Option Uuid → List Status → Prop
  | first : StartsAt full none full
  | later {before status rest} (split : full = before ++ status :: rest) :
      StartsAt full (some status.id) (status :: rest)

/-- As many as fit on a page, and the first one left out. -/
def firstPage (statuses : List Status) (size : Nat) : StatusPage :=
  ⟨statuses.take size, (statuses[size]?).map (·.id)⟩

theorem map_id_eq_append (statuses : List Status) (size : Nat) :
    ∃ rest, statuses.map (·.id) = (firstPage statuses size).statuses.map (·.id) ++ rest ∧
      (firstPage statuses size).next = rest.head? := by
  refine ⟨(statuses.drop size).map (·.id), ?_, ?_⟩
  · rw [firstPage, ← List.map_append, List.take_append_drop]
  · rw [firstPage, List.head?_map, List.head?_drop]

/-- Every page is cut out of one list. -/
def Serves (s : Store) (limits : ListingLimits) (operator : Uuid) (side : Option Side)
    (full : List Status) : Prop :=
  ∀ after rest limit size, StartsAt full after rest → pageSize limits limit = .ok size →
    listStatuses s limits operator ⟨side, none, after, limit⟩ = .ok (firstPage rest size)

/-- The page is the one that its cursor and its limit ask for. -/
def Visit.Shows (limits : ListingLimits) (full : List Status) (v : Visit) : Prop :=
  ∃ rest size, StartsAt full v.after rest ∧ pageSize limits v.limit = .ok size ∧ 1 ≤ size ∧
    v.page = firstPage rest size

variable {full rest : List Status}

theorem StartsAt.drop (h : StartsAt full after rest) {size : Nat} {status : Status}
    (hstatus : rest[size]? = some status) :
    StartsAt full (some status.id) (rest.drop size) := by
  obtain ⟨hsize, hget⟩ := List.getElem?_eq_some_iff.1 hstatus
  rw [List.drop_eq_getElem_cons hsize, hget]
  have hrest : rest = rest.take size ++ status :: rest.drop (size + 1) := by
    rw [← hget, ← List.drop_eq_getElem_cons hsize, List.take_append_drop]
  cases h with
  | first => exact .later hrest
  | @later before first tail split =>
    refine @StartsAt.later _ (before ++ (first :: tail).take size) _ _ ?_
    rw [List.append_assoc, ← hrest]
    exact split

theorem exists_walk_unchanged (hserves : Serves s limits operator side full)
    (hlimits : limits.Proper) (turns : List Turn) (hcalls : ∀ turn ∈ turns, turn.calls = [])
    (hsizes : ∀ turn ∈ turns, turn.limit ≠ some 0) (hstart : StartsAt full after rest)
    (hlength : rest.length < turns.length) :
    ∃ visits, walk limits operator side s after turns = .ok visits ∧
      Chain (Visit.Shows limits full) after visits ∧ Ended visits ∧
      visits.flatMap (·.page.statuses) = rest := by
  induction turns generalizing after rest with
  | nil => cases hlength
  | cons turn turns ih =>
    obtain ⟨size, hsize, hpos, -⟩ := exists_pageSize hlimits (hsizes turn (by simp))
    have hpage := hserves after rest turn.limit size hstart hsize
    have hcall : runAll turn.calls s = s := by rw [hcalls turn (by simp)]; rfl
    have hshows : Visit.Shows limits full ⟨s, after, turn.limit, firstPage rest size⟩ :=
      ⟨rest, size, hstart, hsize, hpos, rfl⟩
    cases hnext : rest[size]? with
    | none =>
      have hstops : (firstPage rest size).next = none := by rw [firstPage, hnext]; rfl
      refine ⟨[⟨s, after, turn.limit, firstPage rest size⟩], ?_, Chain.last hshows hstops,
        ⟨_, rfl, hstops⟩, ?_⟩
      · simp only [walk, hcall, hpage, ok_bind, hstops]
      · have hle := List.getElem?_eq_none_iff.1 hnext
        simp [firstPage, List.take_of_length_le hle]
    | some status =>
      have hgoes : (firstPage rest size).next = some status.id := by rw [firstPage, hnext]; rfl
      have hlt := (List.getElem?_eq_some_iff.1 hnext).1
      obtain ⟨visits, hwalk, hchain, ⟨last, hlast, hstops⟩, hstatuses⟩ := ih
        (fun turn hturn => hcalls turn (by simp [hturn]))
        (fun turn hturn => hsizes turn (by simp [hturn])) (hstart.drop hnext)
        (by rw [List.length_drop]; rw [List.length_cons] at hlength; omega)
      refine ⟨⟨s, after, turn.limit, firstPage rest size⟩ :: visits, ?_,
        Chain.more hshows hgoes hchain, ⟨last, ?_, hstops⟩, ?_⟩
      · simp only [walk, hcall, hpage, ok_bind, hgoes, hwalk]
      · rw [List.getLast?_cons, hlast]
        rfl
      · rw [List.flatMap_cons, hstatuses, firstPage, List.take_append_drop]

end Exchange

end Footprint
