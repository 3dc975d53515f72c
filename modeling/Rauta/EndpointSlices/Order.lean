import Rauta.EndpointSlices.Convergence

/-!
# The order of the slices

The endpoints of a service come in several slices, each with its own ports, and the events for them
come in no particular order. After the last one the routes should hold the same endpoints whatever
the order was, each on the port that its own slice declares.

`handle_endpointslice_apply` takes the port from the slice of the event at hand and puts the
endpoints of all stored slices on it. So the last slice decides, and the order is immaterial exactly
when every written slice declares the one port that all ready endpoints have; the repetition check
by address bytes must not drop any of them either.
-/

namespace Rauta

open Transition Collect

namespace Watcher

open Router

variable {M : Matchit} {w : Watcher} {key : Str} {paths : List Str}

/-! ## What is stored -/

/-- A slice that is written, with the orders that its event meets. -/
structure SliceWrite where
  ord : IterOrder
  order : SliceOrder
  slice : EndpointSlice

/-- The event. -/
def SliceWrite.event (x : SliceWrite) : SliceEvent := .apply x.ord x.order x.slice

/-- The slices stored once some more have been written. -/
def merged (stored : SliceMap) (slices : List EndpointSlice) : SliceMap :=
  slices.foldl (fun stored slice => stored.insert slice.nameAny slice) stored

theorem mem_entries_insert {stored : SliceMap} {slice : EndpointSlice}
    {e : Sigma fun _ : Str => EndpointSlice} :
    e ∈ (stored.insert slice.nameAny slice).entries ↔
      e = ⟨slice.nameAny, slice⟩ ∨ e ∈ stored.entries ∧ slice.nameAny ≠ e.1 := by
  obtain ⟨name, slice'⟩ := e
  rw [← AList.mem_lookup_iff, ← AList.mem_lookup_iff]
  by_cases hname : slice.nameAny = name
  · subst hname
    simp [eq_comm]
  · rw [AList.lookup_insert_ne (Ne.symm hname)]
    simp [hname, Ne.symm hname]

/-- What is stored now was stored before or is the new slice. -/
theorem snd_mem_of_mem_entries_insert {stored : SliceMap} {slice : EndpointSlice}
    (slices : List EndpointSlice) {e : Sigma fun _ : Str => EndpointSlice}
    (h : e ∈ (stored.insert slice.nameAny slice).entries) :
    e.2 ∈ stored.entries.map Sigma.snd ++ slice :: slices := by
  rcases mem_entries_insert.mp h with rfl | ⟨he, -⟩
  · exact List.mem_append_right _ List.mem_cons_self
  · exact List.mem_append_left _ (List.mem_map_of_mem he)

/-- The same with the slices still to come. -/
theorem append_subset_of_insert {stored : SliceMap} {slice : EndpointSlice}
    (slices : List EndpointSlice) :
    (stored.insert slice.nameAny slice).entries.map Sigma.snd ++ slices ⊆
      stored.entries.map Sigma.snd ++ slice :: slices := by
  intro slice' hslice'
  rcases List.mem_append.mp hslice' with hslice' | hslice'
  · obtain ⟨e, he, rfl⟩ := List.mem_map.mp hslice'
    exact snd_mem_of_mem_entries_insert slices he
  · exact List.mem_append_right _ (.tail _ hslice')

/-- Of the slices stored before, those remain whose name does not come up. -/
theorem mem_entries_merged {stored : SliceMap} {slices : List EndpointSlice}
    (hnames : (slices.map EndpointSlice.nameAny).Nodup)
    {e : Sigma fun _ : Str => EndpointSlice} :
    e ∈ (merged stored slices).entries ↔
      (∃ slice ∈ slices, e = ⟨slice.nameAny, slice⟩) ∨
        e ∈ stored.entries ∧ ∀ slice ∈ slices, slice.nameAny ≠ e.1 := by
  induction slices generalizing stored with
  | nil => simp [merged]
  | cons slice slices ih =>
      obtain ⟨hnew, hnames⟩ := List.nodup_cons.mp hnames
      -- no later slice replaces this one
      have hapart : e = ⟨slice.nameAny, slice⟩ → ∀ slice' ∈ slices, slice'.nameAny ≠ e.1 := by
        rintro rfl slice' hmem heq
        exact hnew (List.mem_map.mpr ⟨slice', hmem, heq⟩)
      rw [merged, List.foldl_cons, ← merged, ih hnames, mem_entries_insert]
      simp only [List.exists_mem_cons_iff, List.forall_mem_cons]
      grind

/-- The order of the slices makes no difference to what is stored, and so to what is ready. -/
theorem mem_readyEndpoints_merged {stored : SliceMap} {slices slices' : List EndpointSlice}
    (hnames : (slices.map EndpointSlice.nameAny).Nodup) (hperm : slices'.Perm slices)
    {b : Backend} :
    b ∈ readyEndpoints (merged stored slices') ↔ b ∈ readyEndpoints (merged stored slices) := by
  have hnames' := (hperm.map EndpointSlice.nameAny).nodup_iff.mpr hnames
  simp only [readyEndpoints, List.mem_flatMap, mem_entries_merged hnames,
    mem_entries_merged hnames', hperm.mem_iff]

/-! ## Updates that succeed -/

/-- The addresses that are ready. -/
def readyAddresses (slices : List EndpointSlice) : List (Vector UInt8 16) :=
  slices.flatMap fun slice => (slice.readyBackends slice.targetPort).map Backend.ip

theorem ip_mem_readyAddresses {slices : List EndpointSlice} {slice : EndpointSlice} {port : UInt16}
    {b : Backend} (hslice : slice ∈ slices) (hb : b ∈ slice.readyBackends port) :
    b.ip ∈ readyAddresses slices := by
  rw [slice.readyBackends_eq_map port slice.targetPort] at hb
  obtain ⟨b', hb', rfl⟩ := List.mem_map.mp hb
  exact List.mem_flatMap.mpr ⟨slice, hslice, List.mem_map.mpr ⟨b', hb', rfl⟩⟩

/-- No address is put in twice, on whatever port. -/
theorem length_aggregateBackendsForService_le_addresses (w : Watcher) (order : SliceOrder)
    (key : Str) (port : UInt16) {slices : List EndpointSlice}
    (hslices : ∀ e ∈ (w.slices key).entries, e.2 ∈ slices) :
    (w.aggregateBackendsForService order key port).length ≤
      (readyAddresses slices).dedup.length := by
  rw [aggregateBackendsForService_eq, ← List.length_map Backend.ip, ← Distinct.seen_eq]
  refine (List.subperm_of_subset (Distinct.nodup _) fun ip hip => ?_).length_le
  rcases (Distinct.mem_seen_pushAll _ _).mp hip with h | ⟨b, hb, rfl⟩
  · cases h
  · obtain ⟨e, he, hb⟩ := (mem_values_flatMap order _ port).mp hb
    exact List.mem_dedup.mpr (ip_mem_readyAddresses (hslices e he) hb)

/-- Without an address nothing is ready. -/
theorem readyEndpoints_eq_nil {stored : SliceMap} {slices : List EndpointSlice}
    (hslices : ∀ e ∈ stored.entries, e.2 ∈ slices) (h : readyAddresses slices = []) :
    readyEndpoints stored = [] := by
  refine List.flatMap_eq_nil_iff.mpr fun e he => ?_
  exact List.map_eq_nil_iff.mp (List.flatMap_eq_nil_iff.mp h e.2 (hslices e he))

/-- The service is tracked for paths whose routes can be written, and the slices are of this
service and have few enough addresses, with those stored before. -/
structure Takes (M : Matchit) (w : Watcher) (key : Str) (paths : List Str)
    (slices : List EndpointSlice) : Prop where
  running : w.running
  tracked : w.serviceRoutes.lookup key = some paths
  registered : ∀ path ∈ paths, w.router.Registered path
  rebuilds : ¬ Blocked M w.router
  service : ∀ slice ∈ slices,
    ∃ service, slice.serviceName = some service ∧ slice.serviceKey service = key
  few : (readyAddresses ((w.slices key).entries.map Sigma.snd ++ slices)).dedup.length ≤ maxBackends

/-- The addresses count, not the slices they are in. -/
theorem few_of_subset {slices slices' : List EndpointSlice} (hsub : slices' ⊆ slices)
    (h : (readyAddresses slices).dedup.length ≤ maxBackends) :
    (readyAddresses slices').dedup.length ≤ maxBackends := by
  refine (List.subperm_of_subset (List.nodup_dedup _) fun ip hip => ?_).length_le.trans h
  rw [List.mem_dedup] at hip ⊢
  obtain ⟨slice, hslice, hip⟩ := List.mem_flatMap.mp hip
  exact List.mem_flatMap.mpr ⟨slice, hsub hslice, hip⟩

theorem Takes.perm {slices slices' : List EndpointSlice} (h : w.Takes M key paths slices)
    (hperm : slices'.Perm slices) : w.Takes M key paths slices' where
  running := h.running
  tracked := h.tracked
  registered := h.registered
  rebuilds := h.rebuilds
  service slice hslice := h.service slice (hperm.mem_iff.mp hslice)
  few := few_of_subset (hperm.append_left _).subset h.few

/-- What an event writes to the routes: nothing if nothing is ready, and else what it puts
together. -/
def Written (w w' : Watcher) (key : Str) (paths : List Str) (x : SliceWrite) : Prop :=
  if readyEndpoints (w'.slices key) = [] then w'.router = w.router
  else ∀ path ∈ paths,
    w'.router.Holds (w'.aggregateBackendsForService x.order key x.slice.targetPort) path

/-- An event whose updates succeed. -/
theorem handle_event {x : SliceWrite} {service : Str}
    (hservice : x.slice.serviceName = some service)
    (hkey : x.slice.serviceKey service = key) (htracked : w.serviceRoutes.lookup key = some paths)
    {w₁ : Watcher} (hw₁ : w.store key x.slice = w₁) {router : Router}
    (hupdate : w.router.updateRoutes M x.ord
      (w₁.aggregateBackendsForService x.order key x.slice.targetPort) paths = (.ok, router)) :
    w.handle M x.event =
      if readyEndpoints (w₁.slices key) = [] then w₁ else { w₁ with router := router } := by
  subst hkey
  have htracked₁ : w₁.serviceRoutes.lookup (x.slice.serviceKey service) = some paths :=
    hw₁ ▸ htracked
  have hrouter : w₁.router = w.router := hw₁ ▸ rfl
  simp only [Watcher.handle, SliceWrite.event, handleEndpointsliceApply, hservice, hw₁,
    aggregateBackendsForService_eq_nil_iff, htracked₁, hrouter, hupdate]
  by_cases hnone : readyEndpoints (w₁.slices (x.slice.serviceKey service)) = []
  · simp only [hnone, if_true]
  · simp only [hnone, if_false]

/-- **One event**: it stores the slice, it writes the routes, and the rest can follow. -/
theorem Takes.handle (hM : M.Lawful) {x : SliceWrite} {slices : List EndpointSlice}
    (h : w.Takes M key paths (x.slice :: slices)) :
    (w.handle M x.event).Takes M key paths slices ∧
      (w.handle M x.event).slices key = (w.slices key).insert x.slice.nameAny x.slice ∧
      w.Written (w.handle M x.event) key paths x := by
  obtain ⟨service, hservice, hkey⟩ := h.service x.slice List.mem_cons_self
  obtain ⟨w₁, hw₁⟩ : ∃ w₁, w.store key x.slice = w₁ := ⟨_, rfl⟩
  have hslices : w₁.slices key = (w.slices key).insert x.slice.nameAny x.slice :=
    hw₁ ▸ slices_store w key x.slice
  -- whatever the event leaves in the router, the remaining slices can be written as well
  have hlater : ∀ router, ¬ Blocked M router → (∀ path ∈ paths, router.Registered path) →
      ({ w₁ with router := router } : Watcher).Takes M key paths slices := by
    intro router hb hreg
    refine ⟨hw₁ ▸ h.running, hw₁ ▸ h.tracked, hreg, hb,
      fun slice hslice => h.service slice (.tail _ hslice), few_of_subset ?_ h.few⟩
    rw [show ({ w₁ with router := router } : Watcher).slices key = _ from hslices]
    exact append_subset_of_insert slices
  -- at most as many backends as the table of a route can hold
  have hfew : (w₁.aggregateBackendsForService x.order key x.slice.targetPort).length ≤
      maxBackends := by
    refine (length_aggregateBackendsForService_le_addresses w₁ x.order key _ ?_).trans h.few
    rw [hslices]
    exact fun e => snd_mem_of_mem_entries_insert slices
  obtain ⟨router, hupdate, hb, hkept, hholds, -⟩ :=
    updateRoutes_registered hM x.ord hfew h.rebuilds h.registered
  have hrouter : w₁.router = w.router := hw₁ ▸ rfl
  rw [handle_event hservice hkey h.tracked hw₁ hupdate]
  by_cases hnone : readyEndpoints (w₁.slices key) = []
  · rw [if_pos hnone]
    refine ⟨?_, hslices, (if_pos hnone).mpr hrouter⟩
    exact hlater w₁.router (hrouter ▸ h.rebuilds) (hrouter ▸ h.registered)
  · rw [if_neg hnone]
    refine ⟨?_, hslices, (if_neg hnone).mpr hholds⟩
    exact hlater router hb fun path hpath => hkept path (h.registered path hpath)

/-- **All events**: the slices are stored, and the routes hold what the last event put together. -/
theorem Takes.exec (hM : M.Lawful) (writes : List SliceWrite) (x : SliceWrite)
    (h : w.Takes M key paths ((writes ++ [x]).map (·.slice))) :
    ∃ w', (watcherSystem M).exec w ((writes ++ [x]).map (·.event)) = some w' ∧ w'.running ∧
      w'.slices key = merged (w.slices key) ((writes ++ [x]).map (·.slice)) ∧
      (readyEndpoints (w'.slices key) ≠ [] → ∀ path ∈ paths,
        w'.router.Holds (w'.aggregateBackendsForService x.order key x.slice.targetPort) path) ∧
      (readyAddresses ((w.slices key).entries.map Sigma.snd ++ (writes ++ [x]).map (·.slice)) = [] →
        w'.router = w.router) := by
  induction writes generalizing w with
  | nil =>
      obtain ⟨hlater, hslices, hwritten⟩ := h.handle hM
      refine ⟨w.handle M x.event, ?_, hlater.running, hslices, ?_, ?_⟩
      · simp [System.exec, watcherSystem, h.running]
      · intro hready
        rwa [Written, if_neg hready] at hwritten
      · intro hnone
        have hready := readyEndpoints_eq_nil (fun e => snd_mem_of_mem_entries_insert []) hnone
        rwa [Written, hslices, if_pos hready] at hwritten
  | cons y writes ih =>
      obtain ⟨hlater, hslices, hwritten⟩ := h.handle hM
      obtain ⟨w', hexec, hrunning, hmerged, hholds, hframe⟩ := ih hlater
      refine ⟨w', ?_, hrunning, ?_, hholds, ?_⟩
      · simpa [System.exec, watcherSystem, h.running] using hexec
      · rw [hmerged, hslices]
        rfl
      · intro hnone
        have hready := readyEndpoints_eq_nil (fun e => snd_mem_of_mem_entries_insert _) hnone
        rw [Written, hslices, if_pos hready] at hwritten
        rw [← hwritten]
        refine hframe (List.flatMap_eq_nil_iff.mpr fun slice hslice => ?_)
        rw [hslices] at hslice
        exact List.flatMap_eq_nil_iff.mp hnone slice (append_subset_of_insert _ hslice)

/-! ## Independence of the order -/

/-- The backend is in the `GET` route of the path. -/
def Installed (w : Watcher) (path : Str) (b : Backend) : Prop :=
  ∃ route, w.router.routes.lookup (routeKey .get path) = some route ∧ b ∈ route.backends

theorem installed_iff_of_holds {path : Str} {backends : List Backend} {b : Backend}
    (h : w.router.Holds backends path) : w.Installed path b ↔ b ∈ backends := by
  obtain ⟨route, hroute, rfl⟩ := h
  simp [Installed, hroute]

/-- The writes are those of the slices, in some order, and lead to the state. -/
def Outcome (M : Matchit) (w : Watcher) (slices : List EndpointSlice) (w' : Watcher) : Prop :=
  ∃ writes : List SliceWrite, (writes.map (·.slice)).Perm slices ∧
    (watcherSystem M).exec w (writes.map (·.event)) = some w'

/-- Whatever the order of the slices, the paths get the same endpoints, and among them all that are
ready, on their own ports. -/
def OrderIndependent (M : Matchit) (w : Watcher) (key : Str) (paths : List Str)
    (slices : List EndpointSlice) : Prop :=
  (∀ w₁ w₂, w.Outcome M slices w₁ → w.Outcome M slices w₂ → ∀ path ∈ paths, ∀ b,
    (w₁.Installed path b ↔ w₂.Installed path b)) ∧
  ∀ w', w.Outcome M slices w' → ∀ path ∈ paths,
    ∀ b ∈ readyEndpoints (w'.slices key), w'.Installed path b

/-- All that is ready is on the port of each of the slices, and has an address of its own. -/
structure OnePort (ready : List Backend) (slices : List EndpointSlice) : Prop where
  port : ∀ slice ∈ slices, ∀ b ∈ ready, b.port = slice.targetPort
  apart : ∀ b ∈ ready, ∀ b' ∈ ready, b.ip = b'.ip → b = b'

variable {slices : List EndpointSlice}

/-- An outcome, by its last event. -/
theorem Takes.outcome_cases (hM : M.Lawful) (hnames : (slices.map EndpointSlice.nameAny).Nodup)
    (hne : slices ≠ []) (h : w.Takes M key paths slices) {w' : Watcher}
    (hw' : w.Outcome M slices w') :
    (∀ b, b ∈ readyEndpoints (w'.slices key) ↔
      b ∈ readyEndpoints (merged (w.slices key) slices)) ∧
    (readyEndpoints (w'.slices key) ≠ [] → ∃ slice ∈ slices, ∃ order, ∀ path ∈ paths,
      w'.router.Holds (w'.aggregateBackendsForService order key slice.targetPort) path) ∧
    (readyAddresses ((w.slices key).entries.map Sigma.snd ++ slices) = [] →
      w'.router = w.router) := by
  obtain ⟨writes, hperm, hexec⟩ := hw'
  rcases List.eq_nil_or_concat writes with rfl | ⟨before, x, rfl⟩
  · exact absurd hperm.symm.eq_nil hne
  · rw [List.concat_eq_append] at hperm hexec
    obtain ⟨w'', hexec'', -, hmerged, hholds, hframe⟩ := (h.perm hperm).exec hM before x
    obtain rfl : w'' = w' := Option.some.inj (hexec''.symm.trans hexec)
    refine ⟨fun b => ?_, fun hready => ?_, fun hnone => hframe ?_⟩
    · rw [hmerged]
      exact mem_readyEndpoints_merged hnames hperm
    · refine ⟨x.slice, hperm.subset ?_, x.order, hholds hready⟩
      simp
    · refine List.flatMap_eq_nil_iff.mpr fun slice hslice => ?_
      exact List.flatMap_eq_nil_iff.mp hnone slice ((hperm.append_left _).subset hslice)

/-- Any of the slices can be the last one. -/
theorem Takes.exists_last (hM : M.Lawful) (h : w.Takes M key paths slices) {slice : EndpointSlice}
    (hslice : slice ∈ slices) : ∃ w', w.Outcome M slices w' ∧
      (readyEndpoints (w'.slices key) ≠ [] → ∀ path ∈ paths, w'.router.Holds
        (w'.aggregateBackendsForService .newestFirst key slice.targetPort) path) := by
  obtain ⟨before, after, rfl⟩ := List.append_of_mem hslice
  let write (slice : EndpointSlice) : SliceWrite := ⟨.newestFirst, .newestFirst, slice⟩
  have hmap : (((before ++ after).map write ++ [write slice]).map (·.slice)) =
      before ++ after ++ [slice] := by
    simp [write, Function.comp_def]
  have hperm : (before ++ after ++ [slice]).Perm (before ++ slice :: after) :=
    (List.perm_append_singleton slice _).trans List.perm_middle.symm
  obtain ⟨w', hexec, -, -, hholds, -⟩ :=
    Takes.exec hM ((before ++ after).map write) (write slice) (hmap ▸ h.perm hperm)
  exact ⟨w', ⟨_, hmap ▸ hperm, hexec⟩, hholds⟩

/-- What is put together is on one port. -/
theorem port_of_mem_aggregateBackendsForService {order : SliceOrder} {port : UInt16} {b : Backend}
    (h : b ∈ w.aggregateBackendsForService order key port) : b.port = port := by
  rw [aggregateBackendsForService_eq] at h
  have hmem := (Distinct.mem_of_mem_kept_pushAll h).resolve_left List.not_mem_nil
  obtain ⟨e, -, hb⟩ := (mem_values_flatMap order _ port).mp hmem
  exact EndpointSlice.port_of_mem_readyBackends hb

/-- Its addresses are distinct. -/
theorem eq_of_mem_aggregateBackendsForService {order : SliceOrder} {port : UInt16} {b b' : Backend}
    (h : b ∈ w.aggregateBackendsForService order key port)
    (h' : b' ∈ w.aggregateBackendsForService order key port) (hip : b.ip = b'.ip) : b = b' := by
  rw [aggregateBackendsForService_eq] at h h'
  refine List.inj_on_of_nodup_map ?_ h h' hip
  rw [← Distinct.seen_eq]
  exact Distinct.nodup _

/-- An outcome holds what is ready, if that is on one port. -/
theorem Takes.installed_iff (hM : M.Lawful) (hnames : (slices.map EndpointSlice.nameAny).Nodup)
    (hne : slices ≠ []) (h : w.Takes M key paths slices)
    (hport : OnePort (readyEndpoints (merged (w.slices key) slices)) slices)
    (hready : readyEndpoints (merged (w.slices key) slices) ≠ []) {w' : Watcher}
    (hw' : w.Outcome M slices w') {path : Str} (hpath : path ∈ paths) {b : Backend} :
    w'.Installed path b ↔ b ∈ readyEndpoints (merged (w.slices key) slices) := by
  obtain ⟨hmem, hholds, -⟩ := h.outcome_cases hM hnames hne hw'
  have hready' : readyEndpoints (w'.slices key) ≠ [] := by
    obtain ⟨b, hb⟩ := List.exists_mem_of_ne_nil _ hready
    exact List.ne_nil_of_mem ((hmem b).mpr hb)
  obtain ⟨slice, hslice, order, hholds⟩ := hholds hready'
  rw [installed_iff_of_holds (hholds path hpath), mem_aggregateBackendsForService_iff, hmem]
  · exact fun b hb => hport.port slice hslice b ((hmem b).mp hb)
  · exact fun b hb b' hb' => hport.apart b ((hmem b).mp hb) b' ((hmem b').mp hb')

/-- Where nothing is ready, before or after, no event writes to the routes. -/
theorem readyAddresses_eq_nil {stored : SliceMap}
    (hnames : (slices.map EndpointSlice.nameAny).Nodup) (hbefore : readyEndpoints stored = [])
    (hafter : readyEndpoints (merged stored slices) = []) :
    readyAddresses (stored.entries.map Sigma.snd ++ slices) = [] := by
  refine List.flatMap_eq_nil_iff.mpr fun slice hslice => List.map_eq_nil_iff.mpr ?_
  rcases List.mem_append.mp hslice with hslice | hslice
  · obtain ⟨e, he, rfl⟩ := List.mem_map.mp hslice
    exact List.flatMap_eq_nil_iff.mp hbefore e he
  · have hmem : (⟨slice.nameAny, slice⟩ : Sigma fun _ : Str => EndpointSlice) ∈
        (merged stored slices).entries :=
      (mem_entries_merged hnames).mpr (Or.inl ⟨slice, hslice, rfl⟩)
    exact List.flatMap_eq_nil_iff.mp hafter ⟨slice.nameAny, slice⟩ hmem

/-- Every order runs to its end. -/
theorem Takes.exists_exec (hM : M.Lawful) (hne : slices ≠ []) (h : w.Takes M key paths slices)
    {writes : List SliceWrite} (hperm : (writes.map (·.slice)).Perm slices) :
    ∃ w', (watcherSystem M).exec w (writes.map (·.event)) = some w' ∧ w'.running := by
  rcases List.eq_nil_or_concat writes with rfl | ⟨before, x, rfl⟩
  · exact absurd hperm.symm.eq_nil hne
  · rw [List.concat_eq_append] at hperm ⊢
    obtain ⟨w', hexec, hrunning, -⟩ := (h.perm hperm).exec hM before x
    exact ⟨w', hexec, hrunning⟩

/-- Each slice has its turn as the last one, and then all that is ready is on its port. -/
theorem Takes.onePort (hM : M.Lawful) (hnames : (slices.map EndpointSlice.nameAny).Nodup)
    (hne : slices ≠ []) (hpaths : paths ≠ []) (h : w.Takes M key paths slices)
    (hind : w.OrderIndependent M key paths slices) :
    OnePort (readyEndpoints (merged (w.slices key) slices)) slices := by
  obtain ⟨path, hpath⟩ := List.exists_mem_of_ne_nil _ hpaths
  have hlast : ∀ slice ∈ slices, ∃ w' : Watcher,
      ∀ b ∈ readyEndpoints (merged (w.slices key) slices),
        b ∈ w'.aggregateBackendsForService .newestFirst key slice.targetPort := by
    intro slice hslice
    obtain ⟨w', hw', hholds⟩ := h.exists_last hM hslice
    refine ⟨w', fun b hb => ?_⟩
    have hb' := ((h.outcome_cases hM hnames hne hw').1 b).mpr hb
    rw [← installed_iff_of_holds (hholds (List.ne_nil_of_mem hb') path hpath)]
    exact hind.2 w' hw' path hpath b hb'
  constructor
  · intro slice hslice b hb
    obtain ⟨w', hw'⟩ := hlast slice hslice
    exact port_of_mem_aggregateBackendsForService (hw' b hb)
  · intro b hb b' hb'
    obtain ⟨slice, hslice⟩ := List.exists_mem_of_ne_nil _ hne
    obtain ⟨w', hw'⟩ := hlast slice hslice
    exact eq_of_mem_aggregateBackendsForService (hw' b hb) (hw' b' hb')

/-- And with one port every outcome holds what is ready, or the routes are not written. -/
theorem Takes.orderIndependent (hM : M.Lawful) (hnames : (slices.map EndpointSlice.nameAny).Nodup)
    (hne : slices ≠ []) (h : w.Takes M key paths slices)
    (hready : readyEndpoints (merged (w.slices key) slices) ≠ [] ∨
      readyEndpoints (w.slices key) = [])
    (hport : OnePort (readyEndpoints (merged (w.slices key) slices)) slices) :
    w.OrderIndependent M key paths slices := by
  by_cases hsome : readyEndpoints (merged (w.slices key) slices) = []
  · -- nothing was ready at any time, so no event has touched the router
    have hnone := readyAddresses_eq_nil hnames (hready.resolve_left (not_not.mpr hsome)) hsome
    have hrouter : ∀ w', w.Outcome M slices w' → w'.router = w.router := fun w' hw' =>
      (h.outcome_cases hM hnames hne hw').2.2 hnone
    refine ⟨fun w₁ w₂ hw₁ hw₂ path _ b => ?_, fun w' hw' path _ b hb => ?_⟩
    · simp only [Installed, hrouter w₁ hw₁, hrouter w₂ hw₂]
    · rw [(h.outcome_cases hM hnames hne hw').1, hsome] at hb
      cases hb
  · refine ⟨fun w₁ w₂ hw₁ hw₂ path hpath b => ?_, fun w' hw' path hpath b hb => ?_⟩
    · rw [h.installed_iff hM hnames hne hport hsome hw₁ hpath,
        h.installed_iff hM hnames hne hport hsome hw₂ hpath]
    · rw [h.installed_iff hM hnames hne hport hsome hw' hpath]
      exact ((h.outcome_cases hM hnames hne hw').1 b).mp hb

/-- **Independence of the order**: every order runs to its end, and all lead to the same endpoints,
each on its own port, exactly when all that is ready is on the port of each slice that is
written, with an address of its own. -/
theorem orderIndependent_iff (hM : M.Lawful) (hnames : (slices.map EndpointSlice.nameAny).Nodup)
    (hne : slices ≠ []) (hpaths : paths ≠ []) (h : w.Takes M key paths slices)
    (hready : readyEndpoints (merged (w.slices key) slices) ≠ [] ∨
      readyEndpoints (w.slices key) = []) :
    (∀ writes : List SliceWrite, (writes.map (·.slice)).Perm slices →
      ∃ w', (watcherSystem M).exec w (writes.map (·.event)) = some w' ∧ w'.running) ∧
    (w.OrderIndependent M key paths slices ↔
      OnePort (readyEndpoints (merged (w.slices key) slices)) slices) :=
  ⟨fun _ => h.exists_exec hM hne,
    h.onePort hM hnames hne hpaths, h.orderIndependent hM hnames hne hready⟩

/-- A slice of `api-service` with one pod and one port. -/
def podSlice (name address : Str) (port : Int32) : EndpointSlice :=
  { apiSlice [address] with
    metadata := { (apiSlice []).metadata with name := some name }
    ports := some [⟨some "http".toList, some port⟩] }

/-- The watcher of `api-service`, routed to under `GET /api/users`. -/
def apiWatcher : Watcher :=
  start (started .scan .newestFirst .get "/api/users".toList [.sample])
    (apiRoutes "/api/users".toList)

theorem takes_apiWatcher {slices : List EndpointSlice}
    (hservice : ∀ slice ∈ slices, slice.serviceName = some "api-service".toList ∧
      slice.serviceKey "api-service".toList = "default/api-service".toList)
    (hfew : (readyAddresses slices).dedup.length ≤ maxBackends) :
    apiWatcher.Takes .scan "default/api-service".toList ["/api/users".toList] slices where
  running := rfl
  tracked := by decide
  registered path hpath := by
    obtain ⟨table, -, hroute⟩ := started_onlyRoute .scan .newestFirst .get "/api/users".toList
      (by decide : [Backend.sample].length ≤ maxBackends)
    rw [List.mem_singleton.mp hpath]
    exact ⟨_, hroute.own, rfl⟩
  rebuilds hb := hb (by decide +kernel)
  service slice hslice := ⟨_, hservice slice hslice⟩
  few := hfew

/-- Two slices on one port. -/
theorem orderIndependent_iff_onePort :
    apiWatcher.OrderIndependent .scan "default/api-service".toList ["/api/users".toList]
      [podSlice "a".toList "10.0.1.2".toList 8080, podSlice "b".toList "10.0.1.3".toList 8080] := by
  have htakes : apiWatcher.Takes .scan "default/api-service".toList ["/api/users".toList]
      [podSlice "a".toList "10.0.1.2".toList 8080, podSlice "b".toList "10.0.1.3".toList 8080] :=
    takes_apiWatcher (by decide +kernel) (by decide +kernel)
  refine (orderIndependent_iff Matchit.scan_lawful (by decide +kernel) (by decide) (by decide)
    htakes (Or.inr (by decide +kernel))).2.mpr ⟨?_, ?_⟩
  · decide +kernel
  · decide +kernel

/-- **The last slice decides**: of two slices, one is on port 8080 and the other on port 9090. The
pod of the first is reached on its port only if its slice comes last. -/
theorem exists_not_orderIndependent :
    ¬ ∀ M : Matchit, M.Lawful → ∀ (w : Watcher) (key : Str) (paths : List Str)
      (slices : List EndpointSlice), (slices.map EndpointSlice.nameAny).Nodup →
      w.Takes M key paths slices → readyEndpoints (merged (w.slices key) slices) ≠ [] →
      w.OrderIndependent M key paths slices := by
  intro h
  let key := "default/api-service".toList
  let path := "/api/users".toList
  let a : SliceWrite :=
    ⟨.newestFirst, .newestFirst, podSlice "a".toList "10.0.1.2".toList 8080⟩
  let b : SliceWrite :=
    ⟨.newestFirst, .newestFirst, podSlice "b".toList "10.0.1.3".toList 9090⟩
  have htakes : apiWatcher.Takes .scan key [path] [a.slice, b.slice] :=
    takes_apiWatcher (by decide +kernel) (by decide +kernel)
  have hswap : [b.slice, a.slice].Perm [a.slice, b.slice] := List.Perm.swap _ _ _
  obtain ⟨w₁, hexec₁, -, hslices₁, hholds₁, -⟩ :=
    (htakes.perm hswap).exec Matchit.scan_lawful [b] a
  obtain ⟨w₂, hexec₂, -, hslices₂, hholds₂, -⟩ := htakes.exec Matchit.scan_lawful [a] b
  have hready₁ : readyEndpoints (w₁.slices key) ≠ [] := by
    rw [hslices₁]
    decide +kernel
  have hready₂ : readyEndpoints (w₂.slices key) ≠ [] := by
    rw [hslices₂]
    decide +kernel
  have hfirst : w₁.Installed path (.fromIpv4 10 0 1 2 8080 100) := by
    rw [installed_iff_of_holds (hholds₁ hready₁ path List.mem_cons_self),
      aggregateBackendsForService_eq, hslices₁]
    decide +kernel
  have hind := h .scan Matchit.scan_lawful apiWatcher key [path] [a.slice, b.slice]
    (by decide +kernel) htakes (by decide +kernel)
  have hsecond := (hind.1 w₁ w₂ ⟨[b, a], hswap, hexec₁⟩ ⟨[a, b], .refl _, hexec₂⟩ path
    List.mem_cons_self _).mp hfirst
  rw [installed_iff_of_holds (hholds₂ hready₂ path List.mem_cons_self)] at hsecond
  have hport := port_of_mem_aggregateBackendsForService hsecond
  revert hport
  decide +kernel

end Watcher

end Rauta
