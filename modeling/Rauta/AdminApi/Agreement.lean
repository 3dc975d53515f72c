import Rauta.AdminApi

/-!
# The remote query agrees with the local one

Three arguments. Sorting is stable, so that filtering commutes with it and the first route of a
pattern stays the first. The scores of backends and the confidences of rules are short decimals, so
that JSON leaves them as they are. And a symptom is changed by its encoding only if it has a
character that no rule has; the encoded symptom has one too, and neither finds a rule.
-/

namespace Rauta

open StableSort

/-! ## The routes -/

variable {C : CaseMapping}

theorem retainMethod_sortRoutes (methodFilter : Option Str) (routes : List RouteSnapshot) :
    retainMethod C methodFilter (sortRoutes routes) =
      sortRoutes (retainMethod C methodFilter routes) := by
  cases methodFilter with
  | none => rfl
  | some method => exact filter_insertionSort _ routes

theorem retainPrefix_sortRoutes (pathPrefix : Option Str) (routes : List RouteSnapshot) :
    retainPrefix pathPrefix (sortRoutes routes) = sortRoutes (retainPrefix pathPrefix routes) := by
  cases pathPrefix with
  | none => rfl
  | some path => exact filter_insertionSort _ routes

theorem find?_sortRoutes (pattern : Str) (routes : List RouteSnapshot) :
    (sortRoutes routes).find? (fun r => r.pattern = pattern) =
      routes.find? fun r => r.pattern = pattern := by
  refine find?_insertionSort ?_ routes
  intro a b ha hb
  have hsame : a.pattern = b.pattern :=
    (of_decide_eq_true ha).trans (of_decide_eq_true hb).symm
  exact hsame.le

/-! ## What JSON leaves as it is -/

/-- The statistics, with the hit rate as it is read. -/
def SerdeJson.throughJson (J : SerdeJson) (stats : CacheStats) : CacheStats :=
  { stats with
    hitRate := match stats.hitRate with
      | .finite q => .finite (J.reread q)
      | hitRate => hitRate }

namespace SerdeJson.Lawful

variable {J : SerdeJson}

theorem readBackend (h : J.Lawful) (s : Router) (b : Backend) :
    J.readBackend (s.backendSnapshot b) = s.backendSnapshot b := by
  have hshort : ∀ healthy : Bool, IsShortDecimal (if healthy then 1 else 0) := by
    intro healthy
    refine ⟨if healthy then 1 else 0, 0, ?_, by decide, ?_⟩ <;> split_ifs <;> norm_num
  have hscore : (s.backendSnapshot b).healthScore.bind J.readF64 =
      (s.backendSnapshot b).healthScore := by
    simp only [Router.backendSnapshot]
    cases s.health.backendHealth.lookup b with
    | none => rfl
    | some health =>
      simp only [Option.map_some, Option.bind_some, SerdeJson.readF64, h.reread_short _ (hshort _)]
  rw [SerdeJson.readBackend, hscore]

theorem readRoute (h : J.Lawful) {ord : IterOrder} {s : Router} {r : RouteSnapshot}
    (hr : r ∈ s.listRoutes ord) : J.readRoute r = r := by
  obtain ⟨key, route, -, rfl⟩ := Router.mem_listRoutes.mp hr
  have hbackends : (route.backends.map s.backendSnapshot).map J.readBackend =
      route.backends.map s.backendSnapshot := by
    rw [List.map_map]
    exact List.map_congr_left fun b _ => h.readBackend s b
  simp only [SerdeJson.readRoute, Router.routeSnapshot, hbackends]

theorem map_readRoute (h : J.Lawful) (ord : IterOrder) (s : Router) :
    (sortRoutes (s.listRoutes ord)).map J.readRoute = sortRoutes (s.listRoutes ord) := by
  refine (List.map_congr_left ?_).trans (List.map_id _)
  intro r hr
  exact h.readRoute ((List.mem_insertionSort _).mp hr)

end SerdeJson.Lawful

/-- A rule signs with its confidence. -/
theorem confidence_of_mem_signing {id symptom : Str} {severity : Severity} {confidence : ℚ}
    {findings : DiagnosticContext → List Finding} {ctx : DiagnosticContext} {d : Diagnosis}
    (h : d ∈ (DiagnosticRule.signing id symptom severity confidence findings).evaluate ctx) :
    d.confidence = confidence := by
  obtain ⟨f, -, rfl⟩ := List.mem_map.mp h
  rfl

theorem isShortDecimal_confidence {T : FloatText} {order : PortOrder} {rule : DiagnosticRule}
    (hrule : rule ∈ withBuiltinRules T order) {ctx : DiagnosticContext} {d : Diagnosis}
    (h : d ∈ rule.evaluate ctx) : IsShortDecimal d.confidence := by
  simp only [withBuiltinRules, List.mem_cons, List.not_mem_nil, or_false] at hrule
  rcases hrule with rfl | rfl | rfl | rfl | rfl | rfl | rfl <;> rw [confidence_of_mem_signing h]
  · exact ⟨95, 2, by decide, by decide, by norm_num⟩
  · exact ⟨90, 2, by decide, by decide, by norm_num⟩
  · exact ⟨85, 2, by decide, by decide, by norm_num⟩
  · exact ⟨95, 2, by decide, by decide, by norm_num⟩
  · exact ⟨90, 2, by decide, by decide, by norm_num⟩
  · exact ⟨70, 2, by decide, by decide, by norm_num⟩
  · exact ⟨80, 2, by decide, by decide, by norm_num⟩

theorem SerdeJson.Lawful.readDiagnosis {J : SerdeJson} (h : J.Lawful) {T : FloatText}
    {order : PortOrder} {ctx : DiagnosticContext} {symptom : Str} {d : Diagnosis}
    (hd : d ∈ diagnoseSymptom C (withBuiltinRules T order) ctx symptom) :
    J.readDiagnosis d = d := by
  obtain ⟨rule, hrule, hd⟩ := List.mem_flatMap.mp hd
  have hmem : d ∈ rule.evaluate ctx := by
    split_ifs at hd
    · exact hd
    · cases hd
  rw [SerdeJson.readDiagnosis, h.reread_short _ (isShortDecimal_confidence hrule hmem)]

/-! ## The symptom on its way -/

/-- The characters are ASCII. -/
def Ascii (text : Str) : Prop := ∀ c ∈ text, c.toNat < 128

theorem toNat_lt_of_isUnreserved {c : Char} (h : isUnreserved c) : c.toNat < 128 := by
  simp only [isUnreserved, isAsciiAlphanumeric, Bool.or_eq_true, Bool.and_eq_true,
    decide_eq_true_eq] at h
  rcases h with (((h | rfl) | rfl) | rfl) | rfl
  · omega
  all_goals decide

namespace FormEncoding

variable {E : FormEncoding}

/-- What an encoded character consists of. -/
theorem Lawful.cases (hE : E.Lawful) (c : Char) :
    isUnreserved c ∧ E.encodeChar c = [c] ∨ ¬ isUnreserved c ∧
      ((∃ d ∈ E.encodeChar c, d = '%' ∨ d = '+') ∧
        ∀ d ∈ E.encodeChar c, d = '%' ∨ d = '+' ∨ isUnreserved d) := by
  by_cases hplain : isUnreserved c
  · exact .inl ⟨hplain, hE.unreserved c hplain⟩
  · refine .inr ⟨hplain, ?_⟩
    by_cases hblank : c = ' '
    · rw [hblank, hE.blank]
      simp
    · obtain ⟨hpercent, hall⟩ := hE.escaped c hplain hblank
      refine ⟨⟨'%', hpercent, .inl rfl⟩, ?_⟩
      intro d hd
      rcases hall d hd with h | h
      · exact .inl h
      · refine .inr (.inr ?_)
        simp [isUnreserved, h]

theorem Lawful.of_mem_encode (hE : E.Lawful) {text : Str} {d : Char} (hd : d ∈ E.encode text) :
    d = '%' ∨ d = '+' ∨ isUnreserved d := by
  obtain ⟨c, -, hd⟩ := List.mem_flatMap.mp hd
  rcases hE.cases c with ⟨hplain, hsame⟩ | ⟨-, -, hall⟩
  · rw [hsame, List.mem_singleton] at hd
    rw [hd]
    exact .inr (.inr hplain)
  · exact hall d hd

theorem Lawful.ascii_encode (hE : E.Lawful) (text : Str) : Ascii (E.encode text) := by
  intro d hd
  rcases hE.of_mem_encode hd with rfl | rfl | h
  · decide
  · decide
  · exact toNat_lt_of_isUnreserved h

theorem Lawful.encode_of_unreserved (hE : E.Lawful) {text : Str}
    (h : ∀ c ∈ text, isUnreserved c) : E.encode text = text := by
  rw [encode, List.flatMap_congr fun c hc => hE.unreserved c (h c hc), List.flatMap_singleton']

/-- The server finds the symptom as it was encoded. -/
theorem Lawful.symptomOfQuery_encode (hE : E.Lawful) (symptom : Str) :
    symptomOfQuery (some ("symptom=".toList ++ E.encode symptom)) = E.encode symptom := by
  have hnone : ∀ c, c = '&' ∨ c = '=' → c ∉ E.encode symptom := by
    intro c hc hmem
    rcases hc with rfl | rfl <;> exact absurd (hE.of_mem_encode hmem) (by decide)
  have hsplit : ("symptom=".toList ++ E.encode symptom).splitOn '&' =
      ["symptom=".toList ++ E.encode symptom] := by
    refine List.splitOnP_eq_singleton ?_
    intro c hc
    refine beq_false_of_ne ?_
    rintro rfl
    rcases List.mem_append.mp hc with h | h
    · exact absurd h (by decide)
    · exact hnone _ (.inl rfl) h
  -- there is no second `symptom=` to trim, since the encoding has no `=`
  have htrim : trimStartMatches "symptom=".toList ("symptom=".toList ++ E.encode symptom) =
      E.encode symptom := by
    refine (trimStartMatches_eq_iff (by decide)).mpr ⟨?_, 1, ?_⟩
    · intro hstart
      exact hnone '=' (.inr rfl) (hstart.subset (by decide))
    · rw [repeated_succ, repeated_zero, List.append_nil]
  simp only [symptomOfQuery, Option.bind_some, hsplit, List.find?_cons, List.prefix_append,
    decide_true, Option.map_some, htrim, Option.getD_some]

end FormEncoding

/-! ## The symptom and the rules -/

/-- The characters of the symptoms and ids of the rules, in lower case. -/
def isRuleChar (c : Char) : Bool :=
  (97 ≤ c.toNat && c.toNat ≤ 122) || (48 ≤ c.toNat && c.toNat ≤ 57) || c = '-'

/-- A text of such characters, before it is put in lower case. -/
def isRuleText (text : Str) : Bool := text.all fun c => c.toNat < 128 && isRuleChar c.toLower

theorem of_mem_ruleText {text : Str} (h : isRuleText text) {c : Char} (hc : c ∈ text) :
    c.toNat < 128 ∧ isRuleChar c.toLower := by
  simpa using List.all_eq_true.mp h c hc

theorem isRuleText_of_mem_builtin {T : FloatText} {order : PortOrder} {rule : DiagnosticRule}
    (h : rule ∈ withBuiltinRules T order) : isRuleText rule.symptom ∧ isRuleText rule.id := by
  have hmem : (rule.symptom, rule.id) ∈
      [("circuit-breaker-cascade".toList, "RAUTA-CB-001".toList),
        ("circuit-breaker-open".toList, "RAUTA-CB-002".toList),
        ("rate-limit-exhausted".toList, "RAUTA-RL-001".toList),
        ("no-healthy-backends".toList, "RAUTA-BE-001".toList),
        ("all-backends-draining".toList, "RAUTA-BE-002".toList),
        ("low-cache-hit-rate".toList, "RAUTA-CACHE-001".toList),
        ("listener-conflict".toList, "RAUTA-LISTEN-001".toList)] :=
    List.mem_map_of_mem (f := fun rule : DiagnosticRule => (rule.symptom, rule.id)) h
  generalize rule.symptom = symptom at hmem ⊢
  generalize rule.id = id at hmem ⊢
  simp only [List.mem_cons, Prod.mk.injEq, List.not_mem_nil, or_false] at hmem
  rcases hmem with ⟨rfl, rfl⟩ | ⟨rfl, rfl⟩ | ⟨rfl, rfl⟩ | ⟨rfl, rfl⟩ | ⟨rfl, rfl⟩ | ⟨rfl, rfl⟩ |
    ⟨rfl, rfl⟩ <;> exact ⟨rfl, rfl⟩

/-- The characters of rules need no encoding. -/
theorem isUnreserved_all : ((List.range 128).all fun n =>
    isUnreserved (Char.ofNat n) || !isRuleChar (Char.ofNat n).toLower) = true := by
  decide +kernel

theorem isRuleChar_eq_false {c : Char} (h : c.toNat < 128) (hreserved : ¬ isUnreserved c) :
    isRuleChar c.toLower = false := by
  have hcases := List.all_eq_true.mp isUnreserved_all c.toNat (List.mem_range.mpr h)
  rw [Char.ofNat_toNat] at hcases
  simpa [hreserved] using hcases

/-- An escaped character leaves one behind that no rule has. -/
theorem FormEncoding.Lawful.exists_not_isRuleChar {E : FormEncoding} (hE : E.Lawful) {text : Str}
    {c : Char} (hc : c ∈ text) (hreserved : ¬ isUnreserved c) :
    ∃ d ∈ E.encode text, isRuleChar d.toLower = false := by
  rcases hE.cases c with ⟨hplain, -⟩ | ⟨-, ⟨d, hd, hsign⟩, -⟩
  · exact absurd hplain hreserved
  · refine ⟨d, List.mem_flatMap.mpr ⟨c, hc, hd⟩, ?_⟩
    rcases hsign with rfl | rfl <;> decide

/-- A keyword with a character that no rule has finds none. -/
theorem not_infix_of_not_isRuleChar {keyword text : Str} (hkeyword : Ascii keyword)
    (hchar : ∃ c ∈ keyword, isRuleChar c.toLower = false) (htext : isRuleText text) :
    ¬ C.toLowercase keyword <:+: C.toLowercase text := by
  rw [C.toLowercase_ascii _ hkeyword,
    C.toLowercase_ascii _ fun c hc => (of_mem_ruleText htext hc).1]
  intro hwithin
  obtain ⟨c, hc, hrule⟩ := hchar
  obtain ⟨d, hd, hsame⟩ := List.mem_map.mp (hwithin.subset (List.mem_map_of_mem hc))
  rw [← hsame, (of_mem_ruleText htext hd).2] at hrule
  cases hrule

/-- A keyword with a character that no rule has is about nothing. -/
theorem diagnoseSymptom_eq_nil {T : FloatText} {order : PortOrder} {keyword : Str}
    (hascii : Ascii keyword) (hchar : ∃ c ∈ keyword, isRuleChar c.toLower = false)
    (ctx : DiagnosticContext) :
    diagnoseSymptom C (withBuiltinRules T order) ctx keyword = [] := by
  refine List.flatMap_eq_nil_iff.mpr ?_
  intro rule hrule
  obtain ⟨htext, hid⟩ := isRuleText_of_mem_builtin hrule
  exact if_neg (not_or.mpr ⟨not_infix_of_not_isRuleChar hascii hchar htext,
    not_infix_of_not_isRuleChar hascii hchar hid⟩)

/-- The encoded symptom finds the same rules. -/
theorem diagnoseSymptom_encode {T : FloatText} {order : PortOrder} {E : FormEncoding}
    (hE : E.Lawful) {symptom : Str} (hascii : Ascii symptom) (ctx : DiagnosticContext) :
    diagnoseSymptom C (withBuiltinRules T order) ctx (E.encode symptom) =
      diagnoseSymptom C (withBuiltinRules T order) ctx symptom := by
  by_cases hplain : ∀ c ∈ symptom, isUnreserved c
  · rw [hE.encode_of_unreserved hplain]
  · simp only [not_forall, exists_prop] at hplain
    obtain ⟨c, hc, hreserved⟩ := hplain
    rw [diagnoseSymptom_eq_nil (hE.ascii_encode symptom) (hE.exists_not_isRuleChar hc hreserved),
      diagnoseSymptom_eq_nil hascii ⟨c, hc, isRuleChar_eq_false (hascii c hc) hreserved⟩]

/-- A symptom that is not ASCII finds no rule once it is encoded. -/
theorem diagnoseSymptom_encode_eq_nil {T : FloatText} {order : PortOrder} {E : FormEncoding}
    (hE : E.Lawful) {symptom : Str} (hascii : ¬ Ascii symptom) (ctx : DiagnosticContext) :
    diagnoseSymptom C (withBuiltinRules T order) ctx (E.encode symptom) = [] := by
  simp only [Ascii, not_forall, exists_prop] at hascii
  obtain ⟨c, hc, hhigh⟩ := hascii
  exact diagnoseSymptom_eq_nil (hE.ascii_encode symptom)
    (hE.exists_not_isRuleChar hc fun hplain => hhigh (toNat_lt_of_isUnreserved hplain)) ctx

/-! ## The way to the server -/

namespace RemoteGatewayQuery

variable {W : AdminWorld} {loc : LocalGatewayQuery} {q : RemoteGatewayQuery} {E : FormEncoding}
  {limit : Nat}

/-- The paths of the client are checked character by character. -/
theorem plain_of_all {path : Str}
    (hall : (path.all fun c => c = '/' || isAsciiAlphanumeric c) = true) :
    ∀ c ∈ path, c = '/' ∨ isAsciiAlphanumeric c := by
  intro c hc
  simpa using List.all_eq_true.mp hall c hc

/-- A request that the server answers with success. -/
theorem fetch_of_reaches
    (h : q.client.Reaches E q.baseUrl limit (handleAdminRequest (loc.query W))) {α : Type}
    {read : AdminPayload → Option α} {req : AdminRequest} (hplain : req.Plain)
    (hfits : (q.baseUrl ++ req.target).length ≤ limit) {payload : AdminPayload} {a : α}
    (hserve : handleAdminRequest (loc.query W) req = ⟨200, payload⟩)
    (hread : read payload = some a) :
    q.fetch read req.method (q.baseUrl ++ req.target) = .ok a := by
  have hsend := h.send req hplain hfits
  have hstatus : q.client.errorForStatus ⟨200, payload⟩ = .ok ⟨200, payload⟩ :=
    h.errorForStatus _ rfl
  rw [hserve] at hsend
  simp only [fetch, hsend, bind, Except.bind, hstatus, hread]

/-- The `GET` requests of the client. -/
theorem fetch_get_of_reaches
    (h : q.client.Reaches E q.baseUrl limit (handleAdminRequest (loc.query W)))
    (hfits : (q.baseUrl ++ "/api/v1/status".toList).length ≤ limit) {α : Type}
    {read : AdminPayload → Option α} {path : Str} {payload : AdminPayload} {a : α}
    (hroot : "/".toList <+: path)
    (hall : (path.all fun c => c = '/' || isAsciiAlphanumeric c) = true)
    (hlength : path.length ≤ "/api/v1/status".toList.length)
    (hserve : handleAdminRequest (loc.query W) ⟨"GET".toList, path, none⟩ = ⟨200, payload⟩)
    (hread : read payload = some a) :
    q.fetch read "GET".toList (q.baseUrl ++ path) = .ok a := by
  have hplain : AdminRequest.Plain ⟨"GET".toList, path, none⟩ :=
    { method := .inl rfl
      root := hroot
      path := plain_of_all hall
      query := nofun }
  have htarget : AdminRequest.target ⟨"GET".toList, path, none⟩ = path := List.append_nil _
  have hshort : (q.baseUrl ++ AdminRequest.target ⟨"GET".toList, path, none⟩).length ≤ limit := by
    rw [htarget, List.length_append]
    rw [List.length_append] at hfits
    omega
  have hfetch : q.fetch read "GET".toList
      (q.baseUrl ++ AdminRequest.target ⟨"GET".toList, path, none⟩) = .ok a :=
    fetch_of_reaches h hplain hshort hserve hread
  rwa [htarget] at hfetch

/-- The request for a diagnosis. -/
def diagnoseRequest (E : FormEncoding) (symptom : Str) : AdminRequest :=
  ⟨"POST".toList, "/api/v1/diagnose".toList, some ("symptom=".toList ++ E.encode symptom)⟩

theorem plain_diagnoseRequest (hE : E.Lawful) (symptom : Str) :
    (diagnoseRequest E symptom).Plain where
  method := .inr rfl
  root := by
    show "/".toList <+: "/api/v1/diagnose".toList
    decide
  path := by
    show ∀ c ∈ "/api/v1/diagnose".toList, _
    exact plain_of_all (by decide)
  query query hquery c hc := by
    obtain rfl := Option.mem_some_iff.mp hquery
    have hname : ("symptom=".toList.all fun c => c = '=' || isUnreserved c) = true := by decide
    rcases List.mem_append.mp hc with h | h
    · have hcases := List.all_eq_true.mp hname c h
      simp only [Bool.or_eq_true, decide_eq_true_eq] at hcases
      tauto
    · exact .inr (hE.of_mem_encode h)

variable (h : q.client.Reaches E q.baseUrl limit (handleAdminRequest (loc.query W)))
  (hfits : (q.baseUrl ++ "/api/v1/status".toList).length ≤ limit)

include h hfits

theorem snapshot_of_reaches : q.snapshot W = .ok { loc.status W with
    cacheStats := some (W.json.throughJson (loc.cacheStatsInternal W)) } :=
  fetch_get_of_reaches h hfits (by decide) (by decide) (by decide) rfl rfl

theorem cacheStats_of_reaches :
    q.cacheStats W = .ok (some (W.json.throughJson (loc.cacheStatsInternal W))) :=
  fetch_get_of_reaches h hfits (by decide) (by decide) (by decide) rfl rfl

theorem listRoutes_of_reaches (hjson : W.json.Lawful) (methodFilter pathPrefix : Option Str) :
    q.listRoutes W methodFilter pathPrefix =
      (loc.query W).listRoutes methodFilter pathPrefix := by
  have hroutes : q.fetchRoutes W = .ok (sortRoutes (loc.router.listRoutes loc.iterOrder)) :=
    fetch_get_of_reaches h hfits (by decide) (by decide) (by decide) rfl
      (congrArg some (hjson.map_readRoute loc.iterOrder loc.router))
  rw [listRoutes, hroutes]
  show Except.ok _ = Except.ok _
  rw [retainMethod_sortRoutes, retainPrefix_sortRoutes]

theorem getRoute_of_reaches (hjson : W.json.Lawful) (pattern : Str) :
    q.getRoute W pattern = (loc.query W).getRoute pattern := by
  rw [getRoute, listRoutes_of_reaches h hfits hjson]
  exact congrArg Except.ok (find?_sortRoutes pattern _)

omit hfits

/-- The server diagnoses the symptom as it is encoded. -/
theorem diagnose_of_reaches (hE : E.Lawful) (hjson : W.json.Lawful) {symptom : Str}
    (hfits : (q.baseUrl ++ "/api/v1/diagnose?symptom=".toList ++ E.encode symptom).length ≤ limit) :
    q.diagnose W symptom = .ok (diagnoseSymptom W.caseMapping
      (withBuiltinRules W.floatText W.portOrder) (loc.context W) (E.encode symptom)) := by
  have hname : E.encode "symptom".toList = "symptom".toList :=
    hE.encode_of_unreserved (List.all_eq_true.mp rfl)
  have hquery := h.query "/api/v1/diagnose".toList "symptom".toList symptom (by decide)
  rw [hname] at hquery
  have htarget : q.baseUrl ++ (diagnoseRequest E symptom).target =
      q.baseUrl ++ "/api/v1/diagnose?symptom=".toList ++ E.encode symptom := by
    rw [List.append_assoc]
    rfl
  have hserve : handleAdminRequest (loc.query W) (diagnoseRequest E symptom) =
      ⟨200, .diagnoses (diagnoseSymptom W.caseMapping
        (withBuiltinRules W.floatText W.portOrder) (loc.context W)
        (symptomOfQuery (some ("symptom=".toList ++ E.encode symptom))))⟩ := rfl
  rw [hE.symptomOfQuery_encode] at hserve
  rw [diagnose, hquery]
  refine fetch_of_reaches h (plain_diagnoseRequest hE symptom) (htarget ▸ hfits) hserve ?_
  refine congrArg some ((List.map_congr_left ?_).trans (List.map_id _))
  exact fun d hd => hjson.readDiagnosis hd

end RemoteGatewayQuery

/-- A remote query answers as the local one does: `sent` are the symptoms whose request is short
enough to be sent. -/
structure Agrees (J : SerdeJson) (sent : Str → Prop) (remote loc : GatewayQuery) : Prop where
  snapshot : remote.snapshot = loc.snapshot.map fun s =>
    { s with cacheStats := s.cacheStats.map J.throughJson }
  listRoutes : ∀ methodFilter pathPrefix,
    remote.listRoutes methodFilter pathPrefix = loc.listRoutes methodFilter pathPrefix
  getRoute : ∀ pattern, remote.getRoute pattern = loc.getRoute pattern
  listListeners : remote.listListeners = loc.listListeners
  cacheStats : remote.cacheStats = loc.cacheStats.map (Option.map J.throughJson)
  /-- A symptom is diagnosed in the same way, except that one which is not ASCII finds nothing. -/
  diagnose : ∀ symptom routeFilter backendFilter, sent symptom →
    (Ascii symptom → remote.diagnose symptom routeFilter backendFilter =
      loc.diagnose symptom routeFilter backendFilter) ∧
    (¬ Ascii symptom → remote.diagnose symptom routeFilter backendFilter = .ok [])

/-- **The remote query agrees with the local one**, in what it implements: whatever the state of the
gateway and the order of its maps, and however many slashes the endpoint ends in. -/
theorem agrees_of_origin {W : AdminWorld} (hjson : W.json.Lawful) {E : FormEncoding}
    (hE : E.Lawful) (loc : LocalGatewayQuery) {client : HttpClient} {origin : Str} {limit : Nat}
    (hreaches : client.Reaches E origin limit (handleAdminRequest (loc.query W)))
    (horigin : ¬ "/".toList <:+ origin)
    (hfits : (origin ++ "/api/v1/status".toList).length ≤ limit) (slashes : Nat) :
    Agrees W.json
      (fun symptom =>
        (origin ++ "/api/v1/diagnose?symptom=".toList ++ E.encode symptom).length ≤ limit)
      ((RemoteGatewayQuery.new (origin ++ repeated "/".toList slashes) client).query W)
      (loc.query W) := by
  have hbase : trimEndMatches "/".toList (origin ++ repeated "/".toList slashes) = origin :=
    (trimEndMatches_eq_iff (by decide)).mpr ⟨horigin, slashes, rfl⟩
  rw [RemoteGatewayQuery.new, hbase]
  let q : RemoteGatewayQuery := ⟨origin, client⟩
  have h : q.client.Reaches E q.baseUrl limit (handleAdminRequest (loc.query W)) := hreaches
  have hsnapshot := q.snapshot_of_reaches h hfits
  refine ⟨hsnapshot, q.listRoutes_of_reaches h hfits hjson, q.getRoute_of_reaches h hfits hjson, ?_,
    q.cacheStats_of_reaches h hfits, ?_⟩
  · show q.listListeners W = _
    rw [RemoteGatewayQuery.listListeners, hsnapshot]
    rfl
  · intro symptom routeFilter backendFilter hsent
    have hdiagnose := q.diagnose_of_reaches h hE hjson hsent
    refine ⟨fun hascii => hdiagnose.trans ?_, fun hascii => hdiagnose.trans ?_⟩
    · rw [diagnoseSymptom_encode hE hascii]
      rfl
    · rw [diagnoseSymptom_encode_eq_nil hE hascii]

/-! ## A client -/

/-- A digit of a percent-encoded byte. -/
def hexDigit (n : Nat) : Char := Char.ofNat (if n < 10 then 48 + n else 55 + n)

/-- The encoding of `form_urlencoded`: the bytes of reserved characters in hexadecimal. -/
def FormEncoding.percent : FormEncoding where
  encodeChar c :=
    if isUnreserved c then [c]
    else if c = ' ' then ['+']
    else (String.utf8EncodeChar c).flatMap fun byte =>
      ['%', hexDigit (byte.toNat / 16), hexDigit (byte.toNat % 16)]

theorem hexDigit_all : ((List.range 16).all fun n => isAsciiAlphanumeric (hexDigit n)) = true := by
  decide

theorem FormEncoding.percent_lawful : FormEncoding.percent.Lawful where
  unreserved _ hc := if_pos hc
  blank := rfl
  escaped c hreserved hblank := by
    have hencode : percent.encodeChar c = (String.utf8EncodeChar c).flatMap fun byte =>
        ['%', hexDigit (byte.toNat / 16), hexDigit (byte.toNat % 16)] :=
      (if_neg hreserved).trans (if_neg hblank)
    have hdigit : ∀ n < 16, isAsciiAlphanumeric (hexDigit n) := fun n hn =>
      List.all_eq_true.mp hexDigit_all n (List.mem_range.mpr hn)
    rw [hencode]
    constructor
    · obtain ⟨byte, hbyte⟩ := List.exists_mem_of_ne_nil _ (String.utf8EncodeChar_ne_nil)
      exact List.mem_flatMap.mpr ⟨byte, hbyte, List.mem_cons_self⟩
    · intro d hd
      obtain ⟨byte, -, hd⟩ := List.mem_flatMap.mp hd
      have hlt := byte.toNat_lt
      simp only [List.mem_cons, List.not_mem_nil, or_false] at hd
      rcases hd with rfl | rfl | rfl
      · exact .inl rfl
      · exact .inr (hdigit _ (by omega))
      · exact .inr (hdigit _ (by omega))

/-- A client that is wired to a server. -/
def HttpClient.wired (origin : Str) (limit : Nat) (serve : AdminRequest → AdminResponse) :
    HttpClient where
  query url name value :=
    url ++ '?' :: (FormEncoding.percent.encode name ++ '=' :: FormEncoding.percent.encode value)
  send method url :=
    if origin <+: url ∧ url.length ≤ limit then
      let target := url.drop origin.length
      .ok (serve
        ⟨method, target.takeWhile (· ≠ '?'), (target.dropWhile (· ≠ '?')).tail?⟩)
    else .error "error sending request".toList
  errorForStatus resp :=
    if resp.status < 400 then .ok resp else .error "HTTP status error".toList
  decodingError := "error decoding response body".toList

theorem HttpClient.wired_reaches (origin : Str) (limit : Nat)
    (serve : AdminRequest → AdminResponse) :
    (HttpClient.wired origin limit serve).Reaches .percent origin limit serve where
  query path name value _ := List.append_assoc _ _ _
  send req hplain hfits := by
    have hmark : ∀ c ∈ req.path, (decide (c ≠ '?')) = true := by
      intro c hc
      refine decide_eq_true ?_
      rintro rfl
      exact absurd (hplain.path _ hc) (by decide)
    have hpath : req.target.takeWhile (· ≠ '?') = req.path := by
      rw [AdminRequest.target, List.takeWhile_append_of_pos hmark]
      cases req.query <;> simp
    have hquery : (req.target.dropWhile (· ≠ '?')).tail? = req.query := by
      rw [AdminRequest.target, List.dropWhile_append_of_pos hmark]
      cases req.query <;> simp
    simp only [wired, List.prefix_append, hfits, and_self, if_true, List.drop_left, hpath, hquery]
  errorForStatus resp hstatus := by
    have hlt : resp.status < 400 := by omega
    exact if_pos hlt

/-- JSON that keeps 15 decimals. -/
def SerdeJson.cut : SerdeJson := ⟨fun q => ⌊q * 10 ^ 15⌋ / 10 ^ 15⟩

theorem SerdeJson.cut_lawful : SerdeJson.cut.Lawful where
  reread_short := by
    rintro q ⟨n, k, -, hk, rfl⟩
    obtain ⟨j, hj⟩ := Nat.exists_eq_add_of_le hk
    have hscaled : (n : ℚ) / 10 ^ k * 10 ^ 15 = ((n * 10 ^ j : Nat) : ℤ) := by
      rw [hj, pow_add]
      push_cast
      field_simp
    show ((⌊(n : ℚ) / 10 ^ k * 10 ^ 15⌋ : ℤ) : ℚ) / 10 ^ 15 = n / 10 ^ k
    rw [hscaled, Int.floor_intCast, ← hscaled]
    field_simp

/-- Case mapping for those who only write ASCII. -/
def CaseMapping.ascii : CaseMapping :=
  ⟨List.map Char.toLower, List.map Char.toUpper, fun _ _ => rfl⟩

/-- Numbers are not printed, and not rounded. The first port comes first. -/
def AdminWorld.sample : AdminWorld where
  caseMapping := .ascii
  floatText := ⟨fun _ => [], fun _ _ => [], id⟩
  round := id
  json := .cut
  portOrder := ⟨fun counts => counts.entries.reverse, fun _ => List.reverse_perm _⟩

/-- A gateway with a route to two backends, one of which has answered, and an open breaker. One
request in eleven has hit the cache. -/
def LocalGatewayQuery.sample : LocalGatewayQuery where
  router :=
    { Router.new with
      routes := AList.singleton (routeKey .get "/api".toList)
        (.basic "/api".toList Router.twoBackends
          ((maglevBuildCompactTable Router.twoBackends).getD []))
      health := HealthData.new.recordBackendResponse .sample 200
      routeCache := { RouteLruCache.new routeCacheMaxSize with hits := 1, misses := 10 } }
  iterOrder := .newestFirst
  circuitBreakers := [⟨"10.0.0.1:8080".toList, "Open".toList, 5⟩]
  rateLimiters := []
  uptime := 0

/-- The client of its admin server. -/
def RemoteGatewayQuery.sample : RemoteGatewayQuery :=
  .new "http://127.0.0.1:9091/".toList
    (.wired "http://127.0.0.1:9091".toList 65534
      (handleAdminRequest (LocalGatewayQuery.sample.query .sample)))

/-- The client finds the route and the open breaker. The hit rate it reads is not quite `1 / 11`. -/
theorem agrees_of_origin_sample :
    ((RemoteGatewayQuery.sample.query .sample).getRoute "/api".toList).map
      (Option.map fun r => r.backends.map (·.healthScore)) = .ok (some [some (.finite 1), none]) ∧
    ((RemoteGatewayQuery.sample.query .sample).diagnose "Breaker-OPEN".toList none none).map
      (List.map Diagnosis.ruleId) = .ok ["RAUTA-CB-002".toList] ∧
    (RemoteGatewayQuery.sample.query .sample).cacheStats =
      .ok (some ⟨1, 10, 0, .finite (90909090909090 / 10 ^ 15)⟩) := by
  have horigin : ¬ "/".toList <:+ "http://127.0.0.1:9091".toList := by decide
  have hagrees := agrees_of_origin SerdeJson.cut_lawful FormEncoding.percent_lawful
    (W := .sample) .sample (HttpClient.wired_reaches _ 65534 _) horigin (by decide) 1
  have hascii : Ascii "Breaker-OPEN".toList := by
    have hall : ("Breaker-OPEN".toList.all fun c => c.toNat < 128) = true := rfl
    exact fun c hc => of_decide_eq_true (List.all_eq_true.mp hall c hc)
  have hroute := hagrees.getRoute "/api".toList
  have hdiagnose := (hagrees.diagnose "Breaker-OPEN".toList none none (by decide)).1 hascii
  have hcache := hagrees.cacheStats
  refine ⟨(congrArg (Except.map _) hroute).trans rfl, (congrArg (Except.map _) hdiagnose).trans rfl,
    hcache.trans ?_⟩
  have hrate : SerdeJson.cut.reread (1 / 11) = 90909090909090 / 10 ^ 15 := by
    have hfloor : ⌊(1 / 11 : ℚ) * 10 ^ 15⌋ = 90909090909090 := by norm_num
    show ((⌊(1 / 11 : ℚ) * 10 ^ 15⌋ : ℤ) : ℚ) / 10 ^ 15 = _
    rw [hfloor]
    norm_num
  rw [← hrate]
  rfl

end Rauta
