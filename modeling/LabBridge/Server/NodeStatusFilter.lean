import LabBridge.Server.ManagementListings

/-!
# The status filter of the node list

The database filters nodes by comparing the stored heartbeat with the clock cut to a second. The
service shows a status that it computes from the heartbeat cut to a second and the whole clock.
The two agree except where one of the roundings crosses the edge of the window.
-/

namespace LabBridge.Server

open ByteText CivilTime Fallible LabBridge.Core Storage

/-- The instants of the database are microseconds since the epoch. -/
structure Postgres.CountsMicroseconds (pg : Postgres) : Prop where
  prints : ∀ instant, pg.utcText instant = toCharUtc (instant / microsecondsPerSecond)
  reads : ∀ time : ClockTime, pg.timestamptz (formatUtcTimestamp time.seconds) =
    some (time.seconds * microsecondsPerSecond)

/-- The request text of a status. -/
def statusText : NodeStatus → Bytes
  | .online => text "online"
  | .offline => text "offline"

/-- The text of a status is read as the status. -/
theorem parseNodeStatus_statusText (status : NodeStatus) :
    parseNodeStatus (some (statusText status)) = some status := by
  cases status <;> decide

namespace ManagementQueryService

variable (service : ManagementQueryService) (db : Database)

/-- Whether the node list shows a node on some page, and with which status. -/
def ShowsNode (filter : Option NodeStatus) (node : NodeRow) (shown : Option NodeStatus) : Prop :=
  ∃ page result, service.listNodes db ⟨filter.map statusText, page⟩ = .ok result ∧
    ∃ item ∈ result.items, item.id = idText node.id ∧ item.record.effectiveStatus = shown

/-- The list filtered by a status returns a node exactly when the list without a filter shows
the node with that status. -/
def StatusFilterAgrees (node : NodeRow) : Prop :=
  ∀ status, (∃ shown, service.ShowsNode db (some status) node shown) ↔
    service.ShowsNode db none node (some status)

/-- The status that is shown of a node. -/
def shownStatus (node : NodeRow) : Option NodeStatus :=
  effectiveStatus (Database.toNodeRecord service.postgres node) service.now
    service.nodeOfflineAfterSeconds

/-- The records of a page are selected rows. -/
theorem exists_row_of_selectPage {Row Record : Type} {pg : Postgres} {rows : List Row}
    {key : Row → RowId} {selects : Row → Bool} {record : Row → Record}
    {page : ManagementPageRequest} {records : List (Listed Record)}
    (h : Database.selectPage pg rows key selects record page = .ok records)
    {listed : Listed Record} (hlisted : listed ∈ records) :
    ∃ row ∈ rows, selects row = true ∧ listed = ⟨idText (key row), record row⟩ := by
  simp only [Database.selectPage, Answer.bind_eq_ok, Answer.pure_eq_ok, Except.ok.injEq] at h
  obtain ⟨bound, -, rfl⟩ := h
  obtain ⟨row, hrow, rfl⟩ := List.mem_map.mp hlisted
  have hselected := List.mem_reverse.mp (List.mem_of_mem_take hrow)
  obtain ⟨hmem, hcondition⟩ := List.mem_filter.mp hselected
  exact ⟨row, hmem, (Bool.and_eq_true_iff.mp hcondition).1, rfl⟩

/-- A page holds rows that were fetched. -/
theorem mem_of_mem_trimPage {Record : Type} {rows : List (Listed Record)} {limit : ℤ}
    {listed : Listed Record} (h : listed ∈ (trimPage rows limit).items) : listed ∈ rows := by
  unfold trimPage at h
  dsimp only at h
  split_ifs at h
  · exact List.mem_of_mem_take h
  · exact h

variable {service db}

/-- What a page of the node list shows of a node. -/
theorem exists_node_of_listNodes {filter : Option NodeStatus} {page : PageInput}
    {result : ManagementPage ManagementNode}
    (h : service.listNodes db ⟨filter.map statusText, page⟩ = .ok result)
    {item : Listed ManagementNode} (hitem : item ∈ result.items) :
    ∃ node ∈ db.nodes.rows, service.ofStatus filter node = true ∧ item.id = idText node.id ∧
      item.record.effectiveStatus = service.shownStatus node := by
  have hfilter : parseNodeStatus (filter.map statusText) = filter := by
    cases filter with
    | none => decide
    | some status => exact parseNodeStatus_statusText status
  simp only [listNodes, unit_bind_eq_ok, require_eq_ok, hfilter] at h
  obtain ⟨-, -, h⟩ := h
  simp only [bind_eq_ok, answered_eq_ok, pure_eq_ok] at h
  obtain ⟨records, hrecords, rfl⟩ := h
  obtain ⟨selects, hselects, hstatus⟩ := service.exists_nodeSelected filter
  simp only [Database.listNodes, hselects, Answer.ok_bind] at hrecords
  obtain ⟨listed, hlisted, rfl⟩ := List.mem_map.mp (mem_of_mem_trimPage hitem)
  obtain ⟨node, hnode, hselected, rfl⟩ := exists_row_of_selectPage hrecords hlisted
  exact ⟨node, hnode, hstatus ▸ hselected, rfl, rfl⟩

/-- The node of a key is the only one. -/
theorem node_unique {left right : NodeRow} (hleft : left ∈ db.nodes.rows)
    (hright : right ∈ db.nodes.rows) (h : idText left.id = idText right.id) : left = right :=
  SerialTable.eq_of_key_eq hleft hright (Fin.ext (decimal_injective h))

/-- A page of a listing is the answer of a call. -/
theorem exists_call_of_listing {Record : Type}
    {call : ℕ → Option Bytes → Except Stop (ManagementPage Record)} {time : ℕ}
    {cursor : Option Bytes} {pages : List (ManagementPage Record)}
    (h : Listing call time cursor pages) {page : ManagementPage Record} (hpage : page ∈ pages) :
    ∃ time cursor, call time cursor = .ok page := by
  induction h with
  | last answer hlast =>
    rw [List.mem_singleton.mp hpage]
    exact ⟨_, _, answer⟩
  | more answer hmore tail ih =>
    rcases List.mem_cons.mp hpage with rfl | hrest
    · exact ⟨_, _, answer⟩
    · exact ih hrest

/-- A node that the database selects is shown on some page, with its status. -/
theorem showsNode_of_selected (numbered : db.Numbered) {filter : Option NodeStatus}
    {node : NodeRow} (hnode : node ∈ db.nodes.rows) (hselected : service.ofStatus filter node = true) :
    service.ShowsNode db filter node (service.shownStatus node) := by
  have hfilter : parseNodeStatus (filter.map statusText) = filter := by
    cases filter with
    | none => decide
    | some status => exact parseNodeStatus_statusText status
  have hmatches : node.id ∈ service.matchingIds db (.nodes (filter.map statusText)) := by
    rw [matchingIds, hfilter]
    exact List.mem_map_of_mem (List.mem_filter.mpr ⟨hnode, hselected⟩)
  have ascending (time : ℕ) : (service.matchingAt (fun _ => service.now) (fun _ => db)
      (.nodes (filter.map statusText)) time).Pairwise fun left right => id left < id right :=
    matchingIds_ascending _ _ _
  have accepts : service.Accepts db (.nodes (filter.map statusText)) := by
    intro hsome
    rw [hfilter]
    simpa using hsome
  obtain ⟨pages, hpages⟩ : ∃ pages, Keyset.Pages id (100 : ℤ).toNat (service.matchingAt
      (fun _ => service.now) (fun _ => db) (.nodes (filter.map statusText)))
      (fun _ _ => true) 0 none pages := Keyset.exists_pages ascending 0 none
  obtain ⟨answers, hlisting, hids, -⟩ := service.exists_listing (fun _ => numbered)
    ⟨by decide, le_refl 100⟩ (fun _ => accepts) (fun id hid => by cases hid) hpages
  obtain ⟨_, hlisted, rfl⟩ := hpages.complete (by decide) ascending (fun _ h => by cases h)
    fun time _ _ => ⟨node.id, hmatches, rfl, rfl⟩
  obtain ⟨keys, hkeys, hid⟩ := List.mem_flatten.mp hlisted
  have htexts : keys.map idText ∈ answers.map fun page => page.items.map Listed.id :=
    hids ▸ List.mem_map_of_mem hkeys
  obtain ⟨page, hpage, hitems⟩ := List.mem_map.mp htexts
  obtain ⟨item, hitem, hitemId⟩ := List.mem_map.mp (hitems ▸ List.mem_map_of_mem hid)
  obtain ⟨time, cursor, hanswer⟩ := exists_call_of_listing hlisting hpage
  obtain ⟨result, hresult, rfl⟩ := map_eq_ok.mp hanswer
  obtain ⟨shown, hshown, rfl⟩ := List.mem_map.mp hitem
  obtain ⟨found, hfound, -, hfoundId, hstatus⟩ := exists_node_of_listNodes hresult hshown
  obtain rfl := node_unique hfound hnode (hfoundId.symm.trans hitemId)
  exact ⟨_, _, hresult, shown, hshown, hitemId, hstatus⟩

/-- The filter agrees with the shown status when the status is defined and the database comes to
the same one. -/
theorem statusFilterAgrees_iff (numbered : db.Numbered) {node : NodeRow}
    (hnode : node ∈ db.nodes.rows) : service.StatusFilterAgrees db node ↔
      ∀ status, service.ofStatus (some status) node = true ↔
        service.shownStatus node = some status := by
  have hreturned (status : NodeStatus) : (∃ shown, service.ShowsNode db (some status) node shown) ↔
      service.ofStatus (some status) node = true := by
    constructor
    · rintro ⟨shown, page, result, hresult, item, hitem, hid, -⟩
      obtain ⟨found, hfound, hselected, hfoundId, -⟩ := exists_node_of_listNodes hresult hitem
      obtain rfl := node_unique hfound hnode (hfoundId.symm.trans hid)
      exact hselected
    · exact fun hselected => ⟨_, showsNode_of_selected numbered hnode hselected⟩
  have hshown (status : NodeStatus) : service.ShowsNode db none node (some status) ↔
      service.shownStatus node = some status := by
    constructor
    · rintro ⟨page, result, hresult, item, hitem, hid, hstatus⟩
      obtain ⟨found, hfound, -, hfoundId, heffective⟩ := exists_node_of_listNodes hresult hitem
      obtain rfl := node_unique hfound hnode (hfoundId.symm.trans hid)
      exact heffective.symm.trans hstatus
    · intro hstatus
      exact hstatus ▸ showsNode_of_selected numbered hnode rfl
  simp only [StatusFilterAgrees, hreturned, hshown]

/-- The filter agrees exactly when the status that is shown is the one that the database computes
from the second of the clock. -/
theorem agrees_iff_shown (counts : service.postgres.CountsMicroseconds) (numbered : db.Numbered)
    {node : NodeRow} (hnode : node ∈ db.nodes.rows) : service.StatusFilterAgrees db node ↔
      service.shownStatus node = some (if Database.isOnlineAt
        (service.now.seconds * microsecondsPerSecond) service.nodeOfflineAfterSeconds.toInt node
        then .online else .offline) := by
  have htext := service.postgres.textParam_ascii
    (ascii_of_isRfc3339Utc service.now.isRfc3339Utc_format)
  have htime : service.postgres.timeParam (formatUtcTimestamp service.now.seconds) =
      .ok (service.now.seconds * microsecondsPerSecond) := by
    simp [Postgres.timeParam, htext, counts.reads]
  have hstatus (status : NodeStatus) : service.ofStatus (some status) node = true ↔
      (Database.isOnlineAt (service.now.seconds * microsecondsPerSecond)
        service.nodeOfflineAfterSeconds.toInt node = true ↔ status = .online) := by
    simp only [ofStatus, htime, Except.toOption, Option.all_some, Option.any_some, beq_iff_eq]
    exact Bool.eq_iff_iff.trans (by rw [decide_eq_true_eq])
  rw [statusFilterAgrees_iff numbered hnode]
  simp only [hstatus]
  generalize Database.isOnlineAt _ _ node = online
  constructor
  · intro h
    cases online with
    | true => exact (h .online).mp (by simp)
    | false => exact (h .offline).mp (by simp)
  · intro h status
    cases online <;> cases status <;> simp [h]

end ManagementQueryService

/-- The clock is so close to a heartbeat that a rounding crosses an end of the window: the oldest
heartbeat of the window meets a clock within a second, or the heartbeat lies in the second of the
clock and one of the two is cut back behind the other. -/
def OnEdge (now : ClockTime) (window : ℤ) (heartbeat : Timestamp) : Prop :=
  let second := heartbeat / microsecondsPerSecond
  (second < now.seconds ∧ second + window = now.seconds ∧ 0 < now.fraction) ∨
    second = now.seconds ∧
      (heartbeat % microsecondsPerSecond = 0 ∧
          (0 ≤ window ∧ now.fraction < 0 ∨ window = 0 ∧ 0 < now.fraction) ∨
        heartbeat % microsecondsPerSecond ≠ 0 ∧
          (0 < window ∧ 0 ≤ now.fraction ∨ window = 0 ∧ now.fraction = 0))

instance (now : ClockTime) (window : ℤ) (heartbeat : Timestamp) :
    Decidable (OnEdge now window heartbeat) :=
  inferInstanceAs (Decidable (_ ∨ _))

/-- Away from the edges the two roundings come to the same. -/
theorem not_onEdge_iff (now : ClockTime) (window heartbeat : ℤ) :
    ¬OnEdge now window heartbeat ↔
      ((heartbeat ≤ now.seconds * microsecondsPerSecond ∧
          now.seconds * microsecondsPerSecond - window * microsecondsPerSecond ≤ heartbeat) ↔
        (heartbeat / microsecondsPerSecond * 1000000000 ≤ now.nanoseconds ∧
          now.nanoseconds - heartbeat / microsecondsPerSecond * 1000000000 ≤
            window * 1000000000)) := by
  have hfraction := now.bounds_fraction
  have hnow : now.nanoseconds = now.seconds * 1000000000 + now.fraction := by
    unfold ClockTime.fraction
    omega
  have hsecond := Int.mul_ediv_add_emod heartbeat 1000000
  have hrest := Int.emod_nonneg heartbeat (show (1000000 : ℤ) ≠ 0 by decide)
  have hrest' := Int.emod_lt_of_pos heartbeat (show (0 : ℤ) < 1000000 by decide)
  unfold OnEdge
  rw [hnow]
  simp only [microsecondsPerSecond]
  generalize heartbeat / 1000000 = second at *
  generalize heartbeat % 1000000 = rest at *
  generalize now.seconds = seconds at *
  generalize now.fraction = fraction at *
  have hdatabase : (heartbeat ≤ seconds * 1000000 ∧
      seconds * 1000000 - window * 1000000 ≤ heartbeat) ↔
      (second < seconds ∨ second = seconds ∧ rest = 0) ∧ seconds - window ≤ second := by
    constructor
    · omega
    · omega
  have hservice : (second * 1000000000 ≤ seconds * 1000000000 + fraction ∧
      seconds * 1000000000 + fraction - second * 1000000000 ≤ window * 1000000000) ↔
      (second < seconds ∨ second = seconds ∧ 0 ≤ fraction) ∧
        (seconds - window < second ∨ seconds - window = second ∧ fraction ≤ 0) := by
    constructor
    · omega
    · omega
  rw [hdatabase, hservice]
  rcases lt_trichotomy second seconds with hlt | rfl | hgt
  · simp only [hlt, hlt.ne, true_and, false_and, or_false]
    by_cases hedge : second + window = seconds ∧ 0 < fraction
    · simp only [hedge, and_self, not_true_eq_false, false_iff]
      omega
    · simp only [hedge, not_false_eq_true, true_iff]
      omega
  · simp only [lt_self_iff_false, false_and, false_or, true_and]
    by_cases hzero : rest = 0
    · simp only [hzero, true_and, not_true_eq_false, ne_eq, false_and, or_false]
      constructor
      · omega
      · omega
    · simp only [hzero, false_and, not_false_eq_true, ne_eq, true_and, false_or, false_iff]
      constructor
      · omega
      · omega
  · simp [hgt.not_gt, hgt.ne']

/-- The status computed from a heartbeat that was read. -/
theorem effectiveStatus_eq_some_iff {node : NodeRecord} {now : ClockTime} {window : Int32}
    {seconds : ℤ} {status : NodeStatus} (honline : node.status = .online)
    (hread : parseUtcTimestamp node.lastHeartbeatAt = some seconds) :
    effectiveStatus node now window = some status ↔
      FitsClock (seconds * 1000000000) ∧
      (seconds * 1000000000 ≤ now.nanoseconds →
        FitsClock (now.nanoseconds - seconds * 1000000000)) ∧
      (status = .online ↔ seconds * 1000000000 ≤ now.nanoseconds ∧
        now.nanoseconds - seconds * 1000000000 ≤ window.toInt * 1000000000) := by
  simp only [effectiveStatus, honline, ne_eq, not_true_eq_false, if_false, hread, clockTime?,
    elapsed?]
  by_cases hfits : FitsClock (seconds * 1000000000)
  · rw [dif_pos hfits]
    simp only [Option.bind_eq_bind, Option.bind_some]
    by_cases hfuture : now.nanoseconds < seconds * 1000000000
    · cases status <;> simp [hfuture, hfits]
    · have hpast := not_lt.mp hfuture
      by_cases helapsed : FitsClock (now.nanoseconds - seconds * 1000000000)
      · by_cases hlong : window.toInt * 1000000000 < now.nanoseconds - seconds * 1000000000
        · cases status <;> simp [hfuture, helapsed, hlong, hfits, not_le.mpr hlong]
        · cases status <;> simp [hfuture, helapsed, hlong, hfits, hpast, not_lt.mp hlong]
      · simp [hfuture, helapsed, hpast]
  · simp [hfits]

/-- A heartbeat that both sides judge alike: where the service can read its text, its clock
arithmetic does not overflow, a heartbeat of the common era is not on an edge, and an older one
does not look recent because it is shown without its era. -/
def JudgedAlike (now : ClockTime) (window : ℤ) (heartbeat : Timestamp) : Prop :=
  let second := heartbeat / microsecondsPerSecond
  let shown := shownSeconds second * 1000000000
  shownYear (yearOf second) ≤ 9999 →
    FitsClock shown ∧
    (shown ≤ now.nanoseconds → FitsClock (now.nanoseconds - shown)) ∧
    if 1 ≤ yearOf second then ¬OnEdge now window heartbeat
    else ¬(shown ≤ now.nanoseconds ∧ now.nanoseconds - shown ≤ window * 1000000000)

instance (now : ClockTime) (window : ℤ) (heartbeat : Timestamp) :
    Decidable (JudgedAlike now window heartbeat) :=
  inferInstanceAs (Decidable (_ → _))

namespace ManagementQueryService

variable {service : ManagementQueryService} {db : Database}

/-- Whether the shown status of a heartbeat is the one that the database computes. -/
theorem shown_iff_judgedAlike (counts : service.postgres.CountsMicroseconds) {node : NodeRow}
    {heartbeat : ℤ} (honline : node.status = .online)
    (hheartbeat : node.lastHeartbeatAt = some heartbeat) :
    service.shownStatus node = some (if Database.isOnlineAt
        (service.now.seconds * microsecondsPerSecond) service.nodeOfflineAfterSeconds.toInt node
        then .online else .offline) ↔
      JudgedAlike service.now service.nodeOfflineAfterSeconds.toInt heartbeat := by
  have hselected : Database.isOnlineAt (service.now.seconds * microsecondsPerSecond)
      service.nodeOfflineAfterSeconds.toInt node = true ↔
      heartbeat ≤ service.now.seconds * microsecondsPerSecond ∧
        service.now.seconds * microsecondsPerSecond -
          service.nodeOfflineAfterSeconds.toInt * microsecondsPerSecond ≤ heartbeat := by
    simp [Database.isOnlineAt, hheartbeat, honline]
  have hstatus : (Database.toNodeRecord service.postgres node).status = .online := honline
  have hread : parseUtcTimestamp (Database.toNodeRecord service.postgres node).lastHeartbeatAt =
      if shownYear (yearOf (heartbeat / microsecondsPerSecond)) ≤ 9999
      then some (shownSeconds (heartbeat / microsecondsPerSecond)) else none := by
    rw [← parseUtcTimestamp_toCharUtc, ← counts.prints]
    simp [Database.toNodeRecord, Postgres.utcColumn, hheartbeat]
  have hclock := service.now.bounds_seconds
  have hlow := service.nodeOfflineAfterSeconds.le_toInt
  have hhigh := service.nodeOfflineAfterSeconds.toInt_lt
  obtain ⟨hancient, hlate⟩ := bounds_of_yearOf (heartbeat / microsecondsPerSecond)
  unfold JudgedAlike
  dsimp only
  by_cases hshort : shownYear (yearOf (heartbeat / microsecondsPerSecond)) ≤ 9999
  · rw [if_pos hshort] at hread
    rw [shownStatus, effectiveStatus_eq_some_iff hstatus hread]
    by_cases hera : 1 ≤ yearOf (heartbeat / microsecondsPerSecond)
    · rw [shownSeconds_of_pos hera, if_pos hera, not_onEdge_iff, ← hselected]
      cases Database.isOnlineAt _ _ node <;> simp [hshort]
    · have hoffline : ¬(Database.isOnlineAt (service.now.seconds * microsecondsPerSecond)
          service.nodeOfflineAfterSeconds.toInt node = true) := by
        rw [hselected]
        have hbefore := hancient (by omega)
        simp only [microsecondsPerSecond] at hbefore ⊢
        omega
      rw [if_neg hoffline, if_neg hera]
      simp [hshort]
  · have hoffline : ¬(Database.isOnlineAt (service.now.seconds * microsecondsPerSecond)
        service.nodeOfflineAfterSeconds.toInt node = true) := by
      rw [hselected]
      have hfar : yearOf (heartbeat / microsecondsPerSecond) ≤ 0 ∨
          10000 ≤ yearOf (heartbeat / microsecondsPerSecond) := by
        unfold shownYear at hshort
        split_ifs at hshort <;> omega
      clear hselected hread
      simp only [microsecondsPerSecond] at hfar hancient hlate ⊢
      omega
    rw [if_neg hshort] at hread
    simp [shownStatus, effectiveStatus, hstatus, hread, hoffline, hshort]

/-- The filtered list and the shown status agree on a node exactly when the node is stored as
offline, has no heartbeat, or has one that both sides judge alike. -/
theorem status_filter_agrees_iff (counts : service.postgres.CountsMicroseconds)
    (numbered : db.Numbered) {node : NodeRow} (hnode : node ∈ db.nodes.rows) :
    service.StatusFilterAgrees db node ↔ (node.status = .online →
      ∀ heartbeat ∈ node.lastHeartbeatAt,
        JudgedAlike service.now service.nodeOfflineAfterSeconds.toInt heartbeat) := by
  rw [agrees_iff_shown counts numbered hnode]
  by_cases honline : node.status = .online
  · cases hheartbeat : node.lastHeartbeatAt with
    | none =>
      have hempty : parseUtcTimestamp [] = none := rfl
      simp [shownStatus, effectiveStatus, Database.toNodeRecord, Postgres.utcColumn,
        Database.isOnlineAt, honline, hheartbeat, hempty]
    | some heartbeat =>
      rw [shown_iff_judgedAlike counts honline hheartbeat]
      simp [honline]
  · have hselected : Database.isOnlineAt (service.now.seconds * microsecondsPerSecond)
        service.nodeOfflineAfterSeconds.toInt node = false := by
      unfold Database.isOnlineAt
      cases node.lastHeartbeatAt <;> simp [honline]
    simp [shownStatus, effectiveStatus, Database.toNodeRecord, honline, hselected]

end ManagementQueryService

namespace Reference

/-- A database that counts microseconds since the epoch. -/
def civilPostgres : Postgres where
  __ := postgres
  timestamptz value := (parseUtcTimestamp value).map (· * microsecondsPerSecond)
  utcText instant := toCharUtc (instant / microsecondsPerSecond)
  timestamptz_rfc3339 := by
    intro value h
    obtain ⟨seconds, hread, hprinted⟩ := toCharUtc_of_isRfc3339Utc h
    exact ⟨seconds * microsecondsPerSecond, by simp [hread], by
      rw [Int.mul_ediv_cancel _ (by decide), hprinted]⟩

/-- The clock is read back as the instant it shows. -/
theorem countsMicroseconds_civilPostgres : civilPostgres.CountsMicroseconds where
  prints _ := rfl
  reads time := by
    have hyear := time.yearOf_seconds
    have hshown : shownYear (yearOf time.seconds) = yearOf time.seconds :=
      if_neg (not_le.mpr hyear.1)
    have htext : formatUtcTimestamp time.seconds = toCharUtc time.seconds := by
      simp only [yearOf] at hshown
      simp only [formatUtcTimestamp, toCharUtc, shownDate, hshown]
    simp only [civilPostgres, htext, parseUtcTimestamp_toCharUtc, hshown, if_pos hyear.2,
      shownSeconds_of_pos hyear.1, Option.map_some]

/-- A node that sent a heartbeat at the epoch. -/
def beatingNode : NodeRow := { node with lastHeartbeatAt := some 0 }

/-- The tables with the node. -/
def beatingSite : Database := { site with nodes := .singleton beatingNode rfl }

/-- A service some nanoseconds later, with a window of a minute. -/
def queriesAt (time : ClockTime) : ManagementQueryService := ⟨civilPostgres, time, 60, 3600⟩

/-- The keys of the site begin at one. -/
theorem numbered_beatingSite : beatingSite.Numbered := by constructor <;> decide

end Reference

/-- Half a minute after the heartbeat the filter agrees with the shown status. -/
theorem status_filter_agrees_recent :
    (Reference.queriesAt ⟨30500000000, by decide⟩).StatusFilterAgrees Reference.beatingSite
      Reference.beatingNode := by
  apply (ManagementQueryService.status_filter_agrees_iff
    Reference.countsMicroseconds_civilPostgres Reference.numbered_beatingSite
    List.mem_cons_self).mpr
  decide +kernel

/-- Half a second behind the window the filter still returns the node as online, and the list
shows it as offline. -/
theorem not_status_filter_agrees :
    (Reference.queriesAt ⟨60500000000, by decide⟩).postgres.CountsMicroseconds ∧
      Reference.beatingNode ∈ Reference.beatingSite.nodes.rows ∧
      ¬(Reference.queriesAt ⟨60500000000, by decide⟩).StatusFilterAgrees Reference.beatingSite
        Reference.beatingNode := by
  refine ⟨Reference.countsMicroseconds_civilPostgres, List.mem_cons_self, fun hagrees => ?_⟩
  have hshown := (ManagementQueryService.agrees_iff_shown
    Reference.countsMicroseconds_civilPostgres Reference.numbered_beatingSite
    List.mem_cons_self).mp hagrees
  revert hshown
  decide +kernel

end LabBridge.Server
