import Mathlib.Data.Finset.Insert
import Mathlib.Data.List.Induction
import Rauta.EndpointSlices
import Rauta.Lib.Distinct

/-!
# Certificates by host name

`SniResolver` holds certificates twice over: the certificates themselves in a resolver of rustls,
which answers TLS handshakes, and the host names in a set of its own, which answers `has_cert` and
`get_acceptor`. `add_cert` writes both. `update_cert` writes the first only, on the assumption that
the host name is tracked already. The Secret watcher calls nothing but `update_cert`.

A call that fails changes neither (`call_of_error`). The two agree after every call of a sequence
exactly if each call *fits* those before it (`accurate_run_iff`): what is updated was stored before,
and what is added is stored under the name that is tracked.
-/

namespace Rauta

/-- A sequence of bytes. -/
abbrev Bytes := List UInt8

/-- `TlsCertificate`: both parts in PEM. -/
structure TlsCertificate where
  certChain : Bytes
  privateKey : Bytes

/-- `CertifiedKey`: a certificate chain and its signing key. -/
structure CertifiedKey where
  certs : List Bytes
  signingKey : Bytes

/-- What a call meets of rustls: the PEM readers, the choice of a signing key, and the check that a
resolver makes before it stores a key. The check returns the name the key is stored under, which
need not be the one that is given (host names are stored in lower case). -/
structure Rustls where
  pemReaderIter : Bytes → Except Str (List Bytes)
  fromPemReader : Bytes → Except Str Bytes
  anySupportedType : Bytes → Except Str Bytes
  checkName : Str → CertifiedKey → Except Str Str

/-- A rustls that accepts every certificate, and every name as it is. -/
def Rustls.lenient : Rustls where
  pemReaderIter bytes := .ok [bytes]
  fromPemReader bytes := .ok bytes
  anySupportedType bytes := .ok bytes
  checkName name _ := .ok name

/-- `ResolvesServerCertUsingSni`: keys by name. -/
abbrev SniMap := AList fun _ : Str => CertifiedKey

/-- `ResolvesServerCertUsingSni::add`. -/
def Rustls.add (T : Rustls) (inner : SniMap) (name : Str) (key : CertifiedKey) :
    Except Str SniMap :=
  (T.checkName name key).map fun dnsName => inner.insert dnsName key

/-- `TlsCertificate::from_pem`: both parts can be read. -/
def TlsCertificate.fromPem (T : Rustls) (certPem keyPem : Bytes) : Except Str TlsCertificate := do
  let _ ← T.pemReaderIter certPem
  let _ ← T.fromPemReader keyPem
  return ⟨certPem, keyPem⟩

/-! ## The resolver -/

/-- `SniResolver`. -/
structure SniResolver where
  inner : SniMap
  hostnames : Finset Str

namespace SniResolver

/-- `SniResolver::new`. -/
def new : SniResolver := ⟨∅, ∅⟩

/-- `parse_certified_key`. -/
def parseCertifiedKey (T : Rustls) (cert : TlsCertificate) : Except Str CertifiedKey := do
  let certs ← T.pemReaderIter cert.certChain
  let key ← T.fromPemReader cert.privateKey
  let signingKey ← T.anySupportedType key
  return ⟨certs, signingKey⟩

/-- `add_cert`. -/
def addCert (T : Rustls) (r : SniResolver) (hostname : Str) (cert : TlsCertificate) :
    Except Str Unit × SniResolver :=
  match (parseCertifiedKey T cert).bind (T.add r.inner hostname) with
  | .error e => (.error e, r)
  | .ok inner => (.ok (), { inner := inner, hostnames := insert hostname r.hostnames })

/-- `update_cert`. -/
def updateCert (T : Rustls) (r : SniResolver) (hostname : Str) (cert : TlsCertificate) :
    Except Str Unit × SniResolver :=
  match (parseCertifiedKey T cert).bind (T.add r.inner hostname) with
  | .error e => (.error e, r)
  -- the host name is taken to be tracked
  | .ok inner => (.ok (), { r with inner := inner })

/-- What the resolver of a TLS handshake answers for a server name. -/
def resolve (r : SniResolver) (serverName : Str) : Option CertifiedKey := r.inner.lookup serverName

/-- `to_server_config`: the configuration is its certificate resolver. -/
def toServerConfig (r : SniResolver) : Except Str (Str → Option CertifiedKey) := .ok r.resolve

/-- `get_acceptor`. -/
def getAcceptor (r : SniResolver) (hostname : Str) : Option (Str → Option CertifiedKey) :=
  if hostname ∉ r.hostnames then none else r.toServerConfig.toOption

/-- `has_cert`. -/
def hasCert (r : SniResolver) (hostname : Str) : Bool := hostname ∈ r.hostnames

end SniResolver

/-! ## Secrets -/

/-- The metadata of a Secret, as far as the watcher reads it. -/
structure SecretMeta extends ObjectMeta where
  annotations : Option (AList fun _ : Str => Str)

/-- `Secret`. -/
structure Secret where
  metadata : SecretMeta
  secretType : Option Str
  data : Option (AList fun _ : Str => Bytes)

/-- A TLS Secret for `example.com`. -/
def Secret.sample : Secret where
  metadata :=
    { name := some "example-com-tls".toList
      generateName := none
      metaNamespace := none
      labels := none
      annotations := some (AList.singleton "rauta.io/hostname".toList "example.com".toList) }
  secretType := some "kubernetes.io/tls".toList
  data := some ((AList.singleton "tls.crt".toList []).insert "tls.key".toList [])

/-- `parse_cert_from_secret_data`. -/
def parseCertFromSecretData (T : Rustls) (secret : Secret) : Except Str TlsCertificate :=
  match secret.data with
  | none => .error "Secret has no data".toList
  | some data =>
    match data.lookup "tls.crt".toList with
    | none => .error "Secret missing tls.crt".toList
    | some certData =>
      match data.lookup "tls.key".toList with
      | none => .error "Secret missing tls.key".toList
      | some keyData => TlsCertificate.fromPem T certData keyData

/-- The annotation that names the host. -/
def Secret.hostname (secret : Secret) : Option Str :=
  secret.metadata.annotations.bind fun annotations =>
    annotations.lookup "rauta.io/hostname".toList

/-- `handle_secret_apply`: Secrets of other types are ignored. -/
def handleSecretApply (T : Rustls) (r : SniResolver) (secret : Secret) :
    Except Str Unit × SniResolver :=
  let name := (secret.metadata.name.or secret.metadata.generateName).getD []
  if secret.secretType ≠ some "kubernetes.io/tls".toList then (.ok (), r)
  else
    match secret.hostname with
    | none =>
      (.error ("Secret ".toList ++ secret.metadata.metaNamespace.getD "default".toList ++
        '/' :: name ++ " missing rauta.io/hostname annotation".toList), r)
    | some hostname =>
      match parseCertFromSecretData T secret with
      | .error e => (.error e, r)
      | .ok cert => r.updateCert T hostname cert

/-! ## Calls -/

/-- A call on the resolver, with the rustls it meets. -/
inductive SniCall where
  | addCert (T : Rustls) (hostname : Str) (cert : TlsCertificate)
  | updateCert (T : Rustls) (hostname : Str) (cert : TlsCertificate)
  | secretApply (T : Rustls) (secret : Secret)

namespace SniResolver

/-- What a call returns, and the resolver after it. -/
def call (r : SniResolver) : SniCall → Except Str Unit × SniResolver
  | .addCert T hostname cert => r.addCert T hostname cert
  | .updateCert T hostname cert => r.updateCert T hostname cert
  | .secretApply T secret => handleSecretApply T r secret

/-- The resolver after some calls. -/
def run (r : SniResolver) (calls : List SniCall) : SniResolver :=
  calls.foldl (fun r c => (r.call c).2) r

end SniResolver

/-- A certificate that a call stores: for a host name, under a name, and whether the host name is
tracked from then on. -/
structure Stored where
  hostname : Str
  name : Str
  key : CertifiedKey
  tracked : Bool

namespace SniCall

/-- The parsing and the check that `add_cert` and `update_cert` make. -/
def storeFor (T : Rustls) (tracked : Bool) (hostname : Str) (cert : TlsCertificate) :
    Option Stored :=
  match SniResolver.parseCertifiedKey T cert with
  | .error _ => none
  | .ok key => (T.checkName hostname key).toOption.map fun name => ⟨hostname, name, key, tracked⟩

/-- What a call stores, if anything. This does not depend on the resolver. -/
def stored : SniCall → Option Stored
  | .addCert T hostname cert => storeFor T true hostname cert
  | .updateCert T hostname cert => storeFor T false hostname cert
  | .secretApply T secret =>
    if secret.secretType ≠ some "kubernetes.io/tls".toList then none
    else
      secret.hostname.bind fun hostname =>
        (parseCertFromSecretData T secret).toOption.bind (storeFor T false hostname)

/-- The names that calls store certificates under. -/
def storedNames (calls : List SniCall) : List Str :=
  calls.filterMap fun c => c.stored.map Stored.name

end SniCall

namespace SniResolver

/-- Store a certificate. -/
def store (r : SniResolver) (w : Stored) : SniResolver where
  inner := r.inner.insert w.name w.key
  hostnames := if w.tracked then insert w.hostname r.hostnames else r.hostnames

/-- The step that `add_cert` and `update_cert` share: it fails, or there is a certificate to
store. -/
theorem add_cases (T : Rustls) (r : SniResolver) (hostname : Str) (cert : TlsCertificate) :
    (∃ e, (parseCertifiedKey T cert).bind (T.add r.inner hostname) = .error e ∧
      ∀ tracked, SniCall.storeFor T tracked hostname cert = none) ∨
    ∃ name key, (parseCertifiedKey T cert).bind (T.add r.inner hostname) =
        .ok (r.inner.insert name key) ∧
      ∀ tracked,
        SniCall.storeFor T tracked hostname cert = some ⟨hostname, name, key, tracked⟩ := by
  unfold SniCall.storeFor
  cases parseCertifiedKey T cert with
  | error e => exact Or.inl ⟨e, rfl, fun _ => rfl⟩
  | ok key =>
      simp only [Except.bind, Rustls.add]
      cases T.checkName hostname key with
      | error e => exact Or.inl ⟨e, rfl, fun _ => rfl⟩
      | ok name => exact Or.inr ⟨name, key, rfl, fun _ => rfl⟩

theorem updateCert_cases (T : Rustls) (r : SniResolver) (hostname : Str) (cert : TlsCertificate) :
    (∃ e, r.updateCert T hostname cert = (.error e, r) ∧
      SniCall.storeFor T false hostname cert = none) ∨
    ∃ w, SniCall.storeFor T false hostname cert = some w ∧
      r.updateCert T hostname cert = (.ok (), r.store w) := by
  rcases add_cases T r hostname cert with ⟨e, hadd, hnone⟩ | ⟨name, key, hadd, hsome⟩
  · exact Or.inl ⟨e, by rw [updateCert, hadd], hnone false⟩
  · exact Or.inr ⟨_, hsome false, by rw [updateCert, hadd]; rfl⟩

/-- **What a call does**: it fails or has nothing to do, and changes nothing, or it stores a
certificate. -/
theorem call_cases (r : SniResolver) (c : SniCall) :
    (∃ res, r.call c = (res, r) ∧ c.stored = none) ∨
    ∃ w, c.stored = some w ∧ r.call c = (.ok (), r.store w) := by
  cases c with
  | addCert T hostname cert =>
      rcases add_cases T r hostname cert with ⟨e, hadd, hnone⟩ | ⟨name, key, hadd, hsome⟩
      · exact Or.inl ⟨.error e, by rw [call, addCert, hadd], hnone true⟩
      · exact Or.inr ⟨_, hsome true, by rw [call, addCert, hadd]; rfl⟩
  | updateCert T hostname cert =>
      exact (updateCert_cases T r hostname cert).imp (fun ⟨e, h⟩ => ⟨.error e, h⟩) id
  | secretApply T secret =>
      simp only [call, handleSecretApply, SniCall.stored]
      split
      · exact Or.inl ⟨_, rfl, rfl⟩
      cases secret.hostname with
      | none => exact Or.inl ⟨_, rfl, rfl⟩
      | some hostname =>
          cases parseCertFromSecretData T secret with
          | error e => exact Or.inl ⟨_, rfl, rfl⟩
          | ok cert =>
              exact (updateCert_cases T r hostname cert).imp (fun ⟨e, h⟩ => ⟨.error e, h⟩) id

/-- A call that fails changes nothing. -/
theorem call_of_error {r : SniResolver} {c : SniCall} {e : Str} (h : (r.call c).1 = .error e) :
    (r.call c).2 = r := by
  rcases call_cases r c with ⟨res, hcall, -⟩ | ⟨w, -, hcall⟩
  · rw [hcall]
  · rw [hcall] at h
    cases h

/-- A call stores what it has to store. -/
theorem call_eq (r : SniResolver) (c : SniCall) : (r.call c).2 = (c.stored.map r.store).getD r := by
  rcases call_cases r c with ⟨res, hcall, hstored⟩ | ⟨w, hstored, hcall⟩
  · rw [hcall, hstored, Option.map_none, Option.getD_none]
  · rw [hcall, hstored, Option.map_some, Option.getD_some]

/-- The certificates after some calls are those that the calls store. -/
theorem mem_inner_run_iff (calls : List SniCall) {name : Str} :
    name ∈ (new.run calls).inner ↔ name ∈ SniCall.storedNames calls := by
  have hstep : ∀ (r : SniResolver) (c : SniCall), name ∈ (r.call c).2.inner ↔
      name ∈ r.inner ∨ c.stored.map Stored.name = some name := by
    intro r c
    rw [call_eq]
    cases c.stored with
    | none => simp
    | some w => simp [store, or_comm, eq_comm (a := name)]
  rw [run, Collect.foldl_iff (P := fun r : SniResolver => name ∈ r.inner) hstep,
    SniCall.storedNames, List.mem_filterMap]
  exact or_iff_right (AList.notMem_empty name)

/-! ## Bookkeeping -/

/-- The bookkeeping of the resolver is right. -/
structure Accurate (r : SniResolver) : Prop where
  mem_hostnames_iff : ∀ h, h ∈ r.hostnames ↔ h ∈ r.inner
  hasCert_iff : ∀ h, r.hasCert h ↔ (r.resolve h).isSome
  getAcceptor_iff : ∀ h, (r.getAcceptor h).isSome ↔ (r.resolve h).isSome

theorem accurate_iff_mem {r : SniResolver} :
    r.Accurate ↔ ∀ h, h ∈ r.hostnames ↔ h ∈ r.inner := by
  refine ⟨Accurate.mem_hostnames_iff, fun hmem => ⟨hmem, fun h => ?_, fun h => ?_⟩⟩
  · rw [resolve, AList.lookup_isSome, ← hmem h, hasCert, decide_eq_true_iff]
  · rw [resolve, AList.lookup_isSome, ← hmem h, getAcceptor, toServerConfig]
    split
    · next hnot => simp [hnot]
    · next hin => simpa [Except.toOption] using hin

end SniResolver

/-- A certificate fits the names that certificates are stored under: an update is for one of them,
and an added host name is that of the certificate, or both are known. -/
def Stored.Fits (w : Stored) (names : List Str) : Prop :=
  if w.tracked then w.hostname = w.name ∨ (w.hostname ∈ names ∧ w.name ∈ names)
  else w.name ∈ names

namespace SniResolver

/-- **One certificate**: the bookkeeping stays right exactly if it fits. -/
theorem accurate_store_iff {r : SniResolver} (h : r.Accurate) (w : Stored) {names : List Str}
    (hnames : ∀ name, name ∈ r.inner ↔ name ∈ names) :
    (r.store w).Accurate ↔ w.Fits names := by
  have hhosts : ∀ name, name ∈ r.hostnames ↔ name ∈ names := fun name =>
    (h.mem_hostnames_iff name).trans (hnames name)
  rw [accurate_iff_mem]
  unfold Stored.Fits store
  split
  · simp only [Finset.mem_insert, AList.mem_insert, hhosts, hnames]
    constructor
    · intro hiff
      by_cases heq : w.hostname = w.name
      · exact Or.inl heq
      · exact Or.inr ⟨((hiff w.hostname).mp (Or.inl rfl)).resolve_left heq,
          ((hiff w.name).mpr (Or.inl rfl)).resolve_left (Ne.symm heq)⟩
    · rintro (heq | ⟨hhost, hname⟩) name
      · rw [heq]
      · constructor
        · rintro (rfl | hmem)
          · exact Or.inr hhost
          · exact Or.inr hmem
        · rintro (rfl | hmem)
          · exact Or.inr hname
          · exact Or.inr hmem
  · simp only [AList.mem_insert, hhosts, hnames]
    constructor
    · exact fun hiff => (hiff w.name).mpr (Or.inl rfl)
    · exact fun hmem name => ⟨Or.inr, fun hor => hor.elim (fun heq => heq ▸ hmem) id⟩

theorem accurate_new : new.Accurate := accurate_iff_mem.mpr fun h => by simp [new]

/-- One more call: the bookkeeping stays right exactly if what it stores fits. -/
theorem accurate_concat_iff {calls : List SniCall} (h : (new.run calls).Accurate) (c : SniCall) :
    (new.run (calls ++ [c])).Accurate ↔
      ∀ w, c.stored = some w → w.Fits (SniCall.storedNames calls) := by
  have hrun : new.run (calls ++ [c]) = ((new.run calls).call c).2 := by
    rw [run, List.foldl_append]
    rfl
  rw [hrun, call_eq]
  cases c.stored with
  | none => simpa using h
  | some w =>
      simpa using accurate_store_iff h w fun name => mem_inner_run_iff calls

/-- The bookkeeping is right all along a sequence exactly if what each call stores fits what the
calls before it have stored. -/
theorem accurate_run_iff (calls : List SniCall) :
    (∀ done, done <+: calls → (new.run done).Accurate) ↔
      ∀ done c, done ++ [c] <+: calls →
        ∀ w, c.stored = some w → w.Fits (SniCall.storedNames done) := by
  induction calls using List.reverseRecOn with
  | nil => simp [accurate_new, run]
  | append_singleton calls c ih =>
      have hshort : calls <+: calls ++ [c] := List.prefix_append _ _
      constructor
      · intro h done d hdone w hw
        rcases List.prefix_concat_iff.mp hdone with heq | hdone
        · obtain ⟨rfl, hd⟩ := List.append_inj' heq rfl
          cases hd
          exact (accurate_concat_iff (h done hshort) _).mp (h _ List.prefix_rfl) w hw
        · exact ih.mp (fun done hd => h done (hd.trans hshort)) done d hdone w hw
      · intro h done hdone
        have hold := ih.mpr fun done d hd => h done d (hd.trans hshort)
        rcases List.prefix_concat_iff.mp hdone with rfl | hdone
        · exact (accurate_concat_iff (hold calls List.prefix_rfl) c).mpr (h calls c List.prefix_rfl)
        · exact hold done hdone

/-- **When the bookkeeping is right** after every call of a sequence, and a call that fails changes
nothing: if what each call stores fits what the calls before it have stored. -/
theorem bookkeeping_iff (calls : List SniCall) :
    ((∀ done, done <+: calls → (new.run done).Accurate) ∧
      ∀ done c e, done ++ [c] <+: calls → ((new.run done).call c).1 = .error e →
        ((new.run done).call c).2 = new.run done) ↔
    ∀ done c, done ++ [c] <+: calls →
      ∀ w, c.stored = some w → w.Fits (SniCall.storedNames done) := by
  rw [← accurate_run_iff]
  exact and_iff_left fun done c e _ he => call_of_error he

/-- **A new Secret is not tracked**: its certificate is applied, and handshakes for the host are
served, but there is no certificate according to `has_cert`, and no acceptor. -/
theorem new_secret_untracked :
    let r := new.run [.secretApply .lenient .sample]
    (r.resolve "example.com".toList).isSome ∧ r.hasCert "example.com".toList = false ∧
      (r.getAcceptor "example.com".toList).isNone ∧ ¬ r.Accurate := by
  intro r
  have hserved : (r.resolve "example.com".toList).isSome := by decide +kernel
  have huntracked : r.hasCert "example.com".toList = false := by decide +kernel
  refine ⟨hserved, huntracked, by decide +kernel, fun h => ?_⟩
  rw [(h.hasCert_iff _).mpr hserved] at huntracked
  cases huntracked

end SniResolver

end Rauta
