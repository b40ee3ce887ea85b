import OsModa.Keyd.WalletStore

/-!
The keys of the wallets, in the cache and in their files.

`load_key_bytes` answers from the cache while an entry is fresh, and from the key file
otherwise. Both answers come from the key that the wallet was created with: an entry
is only ever made by reading the file, and `delete_wallet` drops the two together
(`Agrees`). Files are written and removed without failure here; what failures leave is
the subject of `WalletStore`.
-/

namespace OsModa.Keyd

open OsModa.Machine

namespace WalletStore

/-- The cache of the backend that a request leaves. -/
def keepCache {α : Type} (s : WalletStore) (out : α × LocalKeyBackend) : α × WalletStore :=
  (out.1, { s with cachedKeys := out.2.cachedKeys })

/-- The daemon is started again: nothing is cached, and the index is read back. An index that
does not parse ends the start, and no wallet is served. -/
def restart (s : WalletStore) : Except String Unit × WalletStore :=
  match s.indexFile with
  | some index => (.ok (), { s with index := index, cachedKeys := fun _ => none })
  | none => (.error "failed to parse wallets.json", { s with index := [], cachedKeys := fun _ => none })

end WalletStore

inductive KeyEvent where
  | create (call : CreateCall)
  | sign (walletId : String) (message : List UInt8) (now : Nat)
  | load (walletId : String) (now : Nat)
  | delete (call : DeleteCall)
  | evict (now : Nat)
  | restart

inductive KeyReply where
  | created (result : Except String StoredWallet)
  | bytes (result : Except String (List UInt8))
  | done (result : Except String Unit)

abbrev KeyStep := Step WalletStore KeyEvent KeyReply

section

variable (K : WalletCrypto) (aesEncrypt : List UInt8 → List UInt8 → Except String (List UInt8))

def keyNext (e : KeyEvent) (s : WalletStore) : KeyReply × WalletStore :=
  match e with
  | .create call => ((s.createWallet K aesEncrypt call).map .created id)
  | .sign walletId message now =>
    (s.keepCache (s.backend.signMessage K now walletId message)).map .bytes id
  | .load walletId now => (s.keepCache (s.backend.loadKeyBytes K now walletId)).map .bytes id
  | .delete call => (s.deleteWallet call).map .done id
  | .evict now => (.done (.ok ()), { s with cachedKeys := (s.backend.evictStaleKeys now).cachedKeys })
  | .restart => s.restart.map .done id

/-- No file operation of the call fails. A nonce has twelve bytes. -/
def KeyEvent.FilesSucceed : KeyEvent → Prop
  | create call =>
    call.nonce.length = 12 ∧ (∀ left, call.keyFile ≠ .failed left) ∧ call.keyPermissions = true ∧
      call.save.Done
  | delete call => call.removed = true ∧ call.save.Done
  | _ => True

/-- The id that a creation draws. -/
def KeyEvent.drawnId : KeyEvent → Option String
  | create call => some call.walletId
  | _ => none

/-- The wallet was deleted. -/
def Deletes (walletId : String) (t : KeyStep) : Prop :=
  ∃ call, t.input = .delete call ∧ call.walletId = walletId ∧ t.output = .done (.ok ())

/-- The wallet's key on disk. -/
def LocalKeyBackend.storedKey (b : LocalKeyBackend) (walletId : String) :
    Except String (List UInt8) :=
  (orError (b.keyFiles walletId) "failed to read encrypted key").bind (decrypt K)

/-- The key file holds the key, or no readable key at all, and the cache holds no other. -/
structure Agrees (walletId : String) (key : Option (List UInt8)) (s : WalletStore) : Prop where
  stored : (s.backend.storedKey K walletId).toOption = key
  cached : ∀ entry, s.cachedKeys walletId = some entry → key = some entry.1

variable {K} {aesEncrypt} {walletId : String} {key : Option (List UInt8)} {s : WalletStore}

/-! ### Loading -/

/-- The cache after an eviction holds entries that were there before. -/
theorem evictStaleKeys_cached {b : LocalKeyBackend} {now : Nat} {entry : List UInt8 × Nat}
    (h : (b.evictStaleKeys now).cachedKeys walletId = some entry) :
    b.cachedKeys walletId = some entry :=
  (Option.filter_eq_some_iff.mp h).1

/-- A key is loaded from the cache, or from its file and then kept; or there is none. -/
theorem loadKeyBytes_cases (K : WalletCrypto) (b : LocalKeyBackend) (now : Nat)
    (walletId : String) :
    (∃ bytes, (b.loadKeyBytes K now walletId).1 = .ok bytes ∧
      ((∃ accessed, b.cachedKeys walletId = some (bytes, accessed)) ∨
        b.storedKey K walletId = .ok bytes) ∧
      (b.loadKeyBytes K now walletId).2.cachedKeys =
        Function.update (b.evictStaleKeys now).cachedKeys walletId (some (bytes, now))) ∨
    ∃ e, (b.loadKeyBytes K now walletId).1 = .error e ∧ b.storedKey K walletId = .error e ∧
      (b.evictStaleKeys now).cachedKeys walletId = none ∧
      (b.loadKeyBytes K now walletId).2.cachedKeys = (b.evictStaleKeys now).cachedKeys := by
  unfold LocalKeyBackend.loadKeyBytes
  dsimp only
  cases hcached : (b.evictStaleKeys now).cachedKeys walletId with
  | some entry =>
    exact Or.inl ⟨entry.1, rfl, Or.inl ⟨entry.2, evictStaleKeys_cached hcached⟩, rfl⟩
  | none =>
    dsimp only
    have hstored : b.storedKey K walletId =
        (orError ((b.evictStaleKeys now).keyFiles walletId) "failed to read encrypted key").bind
          (LocalKeyBackend.decrypt K) := rfl
    rw [← hstored]
    cases b.storedKey K walletId with
    | error e => exact Or.inr ⟨e, rfl, rfl, rfl, rfl⟩
    | ok bytes => exact Or.inl ⟨bytes, rfl, Or.inr rfl, rfl⟩

theorem Agrees.evict (h : Agrees K walletId key s) (now : Nat) :
    Agrees K walletId key { s with cachedKeys := (s.backend.evictStaleKeys now).cachedKeys } :=
  ⟨h.stored, fun entry hentry => h.cached entry (evictStaleKeys_cached hentry)⟩

/-- A key that is loaded is the one that the stores agree on. -/
theorem Agrees.eq_of_found (h : Agrees K walletId key s) {bytes : List UInt8}
    (hfound : (∃ accessed, s.backend.cachedKeys walletId = some (bytes, accessed)) ∨
      s.backend.storedKey K walletId = .ok bytes) : key = some bytes := by
  rcases hfound with ⟨accessed, hcached⟩ | hstored
  · exact h.cached _ hcached
  · rw [← h.stored, hstored]
    rfl

/-- Loading a key gives the key that the stores agree on, or an error if there is none. -/
theorem Agrees.load (h : Agrees K walletId key s) (now : Nat) :
    (s.backend.loadKeyBytes K now walletId).1.toOption = key := by
  rcases loadKeyBytes_cases K s.backend now walletId with
    ⟨bytes, hload, hfound, -⟩ | ⟨e, hload, hstored, -, -⟩
  · rw [hload, h.eq_of_found hfound]
    rfl
  · rw [hload, ← h.stored, hstored]

theorem Agrees.load_ok {bytes : List UInt8} (h : Agrees K walletId (some bytes) s) (now : Nat) :
    (s.backend.loadKeyBytes K now walletId).1 = .ok bytes :=
  toOption_eq_some.mp (h.load now)

theorem Agrees.load_error (h : Agrees K walletId none s) (now : Nat) :
    ∃ e, (s.backend.loadKeyBytes K now walletId).1 = .error e := by
  have hload := h.load now
  cases hresult : (s.backend.loadKeyBytes K now walletId).1 with
  | error e => exact ⟨e, rfl⟩
  | ok bytes =>
    rw [hresult] at hload
    cases hload

/-- An id that is not in use has no key. -/
theorem Agrees.of_unused (hfile : s.keyFiles walletId = none)
    (hcached : s.cachedKeys walletId = none) : Agrees K walletId none s := by
  constructor
  · unfold LocalKeyBackend.storedKey WalletStore.backend
    dsimp only
    rw [hfile]
    rfl
  · intro entry hentry
    rw [hcached] at hentry
    cases hentry

/-- Loading any key leaves the stores in agreement. -/
theorem Agrees.loaded (h : Agrees K walletId key s) (now : Nat) (other : String) :
    Agrees K walletId key
      { s with cachedKeys := (s.backend.loadKeyBytes K now other).2.cachedKeys } := by
  refine ⟨h.stored, fun entry hentry => ?_⟩
  rcases loadKeyBytes_cases K s.backend now other with
    ⟨bytes, -, hfound, hcache⟩ | ⟨e, -, -, -, hcache⟩
  · dsimp only at hentry
    rw [hcache] at hentry
    by_cases hsame : walletId = other
    · subst hsame
      rw [Function.update_self] at hentry
      rw [← Option.some.inj hentry]
      exact h.eq_of_found hfound
    · rw [Function.update_of_ne hsame] at hentry
      exact h.cached entry (evictStaleKeys_cached hentry)
  · dsimp only at hentry
    rw [hcache] at hentry
    exact h.cached entry (evictStaleKeys_cached hentry)

/-- Signing uses the cache as loading does, or not at all. -/
theorem Agrees.signed (h : Agrees K walletId key s) (now : Nat) (other : String)
    (message : List UInt8) :
    Agrees K walletId key
      { s with cachedKeys := (s.backend.signMessage K now other message).2.cachedKeys } := by
  have hloaded := h.loaded now other
  unfold LocalKeyBackend.signMessage
  split
  · exact h
  · split
    · rename_i hload
      rwa [hload] at hloaded
    · rename_i hload
      rwa [hload] at hloaded

/-! ### The other requests -/

theorem saveIndex_done {save : IndexSave} (hsave : save.Done) (osError : String) :
    s.saveIndex save osError =
      (.ok (), { s with indexFile := save.write.leaves s.index s.indexFile }) := if_pos hsave

/-- A creation whose files are written fails and changes nothing, or puts the encrypted key in
its file. -/
theorem createWallet_cases {call : CreateCall} (hfiles : (KeyEvent.create call).FilesSucceed) :
    (∃ e, s.createWallet K aesEncrypt call = (.error e, s)) ∨
      ∃ encrypted, WalletStore.encrypt aesEncrypt call.nonce call.key.bytes = .ok encrypted ∧
        (s.createWallet K aesEncrypt call).1 = .ok (call.info K) ∧
        (s.createWallet K aesEncrypt call).2.keyFiles =
          Function.update s.keyFiles call.walletId (some encrypted) ∧
        (s.createWallet K aesEncrypt call).2.cachedKeys = s.cachedKeys := by
  obtain ⟨-, hwrite, hperm, hsave⟩ := hfiles
  unfold WalletStore.createWallet
  by_cases hlabel : 128 < call.label.utf8ByteSize
  · exact Or.inl ⟨_, if_pos hlabel⟩
  · rw [if_neg hlabel]
    cases hencrypt : WalletStore.encrypt aesEncrypt call.nonce call.key.bytes with
    | error e => exact Or.inl ⟨e, rfl⟩
    | ok encrypted =>
      refine Or.inr ⟨encrypted, rfl, ?_⟩
      cases hkey : call.keyFile with
      | failed left => exact absurd hkey (hwrite left)
      | written =>
        simp only [hperm, if_true, saveIndex_done hsave]
        exact ⟨rfl, rfl, rfl⟩

theorem deleteWallet_cases {call : DeleteCall} (hfiles : (KeyEvent.delete call).FilesSucceed) :
    (∃ e, s.deleteWallet call = (.error e, s)) ∨
      (s.deleteWallet call).1 = .ok () ∧
        (s.deleteWallet call).2.keyFiles = Function.update s.keyFiles call.walletId none ∧
        (s.deleteWallet call).2.cachedKeys = Function.update s.cachedKeys call.walletId none := by
  obtain ⟨hremoved, hsave⟩ := hfiles
  unfold WalletStore.deleteWallet
  split
  · exact Or.inl ⟨_, rfl⟩
  · refine Or.inr ?_
    rw [if_neg (by simp [hremoved])]
    rw [saveIndex_done hsave]
    exact ⟨rfl, rfl, rfl⟩

theorem id_of_created {call : CreateCall} (hfiles : (KeyEvent.create call).FilesSucceed)
    {info : StoredWallet} (hok : (s.createWallet K aesEncrypt call).1 = .ok info) :
    info.id = call.walletId := by
  rcases @createWallet_cases K aesEncrypt s call hfiles with ⟨e, hfailed⟩ | ⟨_, -, hcreated, -⟩
  · rw [hfailed] at hok
    cases hok
  · rw [← Except.ok.inj (hcreated.symm.trans hok)]
    rfl

/-- What was encrypted is decrypted. -/
theorem decrypt_encrypt
    (hcipher : ∀ nonce plaintext ciphertext, aesEncrypt nonce plaintext = .ok ciphertext →
      K.aesDecrypt nonce ciphertext = .ok plaintext)
    {nonce plaintext encrypted : List UInt8} (hnonce : nonce.length = 12)
    (h : WalletStore.encrypt aesEncrypt nonce plaintext = .ok encrypted) :
    LocalKeyBackend.decrypt K encrypted = .ok plaintext := by
  obtain ⟨ciphertext, hciphertext, rfl⟩ := map_eq_ok.mp h
  have hdecrypted := hcipher nonce plaintext ciphertext (mapError_eq_ok.mp hciphertext)
  unfold LocalKeyBackend.decrypt
  rw [if_neg (by simp [hnonce]), List.take_left' hnonce, List.drop_left' hnonce, hdecrypted]
  rfl

/-- A new wallet's key is the one that was drawn, if nothing was cached under its id. -/
theorem Agrees.created
    (hcipher : ∀ nonce plaintext ciphertext, aesEncrypt nonce plaintext = .ok ciphertext →
      K.aesDecrypt nonce ciphertext = .ok plaintext)
    {call : CreateCall} (h : Agrees K call.walletId none s)
    (hfiles : (KeyEvent.create call).FilesSucceed) {info : StoredWallet}
    (hok : (s.createWallet K aesEncrypt call).1 = .ok info) :
    Agrees K call.walletId (some call.key.bytes) (s.createWallet K aesEncrypt call).2 := by
  rcases @createWallet_cases K aesEncrypt s call hfiles with
    ⟨e, hfailed⟩ | ⟨encrypted, hencrypted, -, hkeyFiles, hcached⟩
  · rw [hfailed] at hok
    cases hok
  · constructor
    · unfold LocalKeyBackend.storedKey WalletStore.backend
      dsimp only
      rw [hkeyFiles, Function.update_self, orError, Except.bind,
        decrypt_encrypt hcipher hfiles.1 hencrypted]
      rfl
    · intro entry hentry
      rw [hcached] at hentry
      have hnone := h.cached entry hentry
      cases hnone

/-- A deleted wallet has no key. -/
theorem Agrees.deleted {call : DeleteCall} (hfiles : (KeyEvent.delete call).FilesSucceed)
    (hok : (s.deleteWallet call).1 = .ok ()) :
    Agrees K call.walletId none (s.deleteWallet call).2 := by
  rcases @deleteWallet_cases s call hfiles with ⟨e, hfailed⟩ | ⟨-, hkeyFiles, hcached⟩
  · rw [hfailed] at hok
    cases hok
  · apply Agrees.of_unused
    · rw [hkeyFiles, Function.update_self]
    · rw [hcached, Function.update_self]

/-- Stores that are the same at the id agree on the same key. -/
theorem Agrees.congr {s' : WalletStore} (h : Agrees K walletId key s)
    (hfile : s'.keyFiles walletId = s.keyFiles walletId)
    (hcached : s'.cachedKeys walletId = s.cachedKeys walletId) : Agrees K walletId key s' := by
  constructor
  · rw [← h.stored]
    unfold LocalKeyBackend.storedKey WalletStore.backend
    dsimp only
    rw [hfile]
  · intro entry hentry
    exact h.cached entry (hcached ▸ hentry)

/-- A step that neither creates nor deletes the wallet leaves its key. -/
theorem Agrees.step (h : Agrees K walletId key s) {e : KeyEvent} (hfiles : e.FilesSucceed)
    (hdrawn : e.drawnId ≠ some walletId)
    (hkept : key = none ∨ ¬Deletes walletId (stepOf (keyNext K aesEncrypt) e s)) :
    Agrees K walletId key (keyNext K aesEncrypt e s).2 := by
  cases e with
  | create call =>
    have hne : walletId ≠ call.walletId := fun hsame => hdrawn (congrArg some hsame.symm)
    change Agrees K walletId key (s.createWallet K aesEncrypt call).2
    rcases @createWallet_cases K aesEncrypt s call hfiles with
      ⟨e, hfailed⟩ | ⟨encrypted, -, -, hkeyFiles, hcached⟩
    · rwa [hfailed]
    · apply h.congr
      · rw [hkeyFiles, Function.update_of_ne hne]
      · rw [hcached]
  | sign other message now => exact h.signed now other message
  | load other now => exact h.loaded now other
  | delete call =>
    change Agrees K walletId key (s.deleteWallet call).2
    rcases @deleteWallet_cases s call hfiles with ⟨e, hfailed⟩ | ⟨hok, hkeyFiles, hcached⟩
    · rwa [hfailed]
    · by_cases hsame : call.walletId = walletId
      · rcases hkept with rfl | hkept
        · subst hsame
          exact Agrees.deleted hfiles hok
        · exact absurd ⟨call, rfl, hsame, congrArg KeyReply.done hok⟩ hkept
      · apply h.congr
        · rw [hkeyFiles, Function.update_of_ne (Ne.symm hsame)]
        · rw [hcached, Function.update_of_ne (Ne.symm hsame)]
  | evict now => exact h.evict now
  | restart =>
    change Agrees K walletId key s.restart.2
    unfold WalletStore.restart
    split
    · exact ⟨h.stored, nofun⟩
    · exact ⟨h.stored, nofun⟩

/-- So does a run without such a step. -/
theorem Agrees.run {events : List KeyEvent} (h : Agrees K walletId key s)
    (hfiles : ∀ e ∈ events, e.FilesSucceed) (hdrawn : ∀ e ∈ events, e.drawnId ≠ some walletId)
    (hkept : key = none ∨ ∀ t ∈ trace (keyNext K aesEncrypt) events s, ¬Deletes walletId t) :
    Agrees K walletId key (final (keyNext K aesEncrypt) events s) := by
  induction events generalizing s with
  | nil => exact h
  | cons e events ih =>
    obtain ⟨hfile, hfiles⟩ := List.forall_mem_cons.mp hfiles
    obtain ⟨hdraw, hdrawn⟩ := List.forall_mem_cons.mp hdrawn
    refine ih (h.step hfile hdraw (hkept.imp_right fun hkept => hkept _ List.mem_cons_self)) hfiles
      hdrawn (hkept.imp_right fun hkept t ht => hkept t (List.mem_cons_of_mem _ ht))

/-- A run from a split of its events. -/
theorem split_events {events : List KeyEvent} {past future : List KeyStep} {t : KeyStep}
    (hsplit : trace (keyNext K aesEncrypt) events s = past ++ t :: future) :
    events = past.map Step.input ++ t.input :: future.map Step.input ∧
      t = stepOf (keyNext K aesEncrypt) t.input
        (final (keyNext K aesEncrypt) (past.map Step.input) s) ∧
      future = trace (keyNext K aesEncrypt) (future.map Step.input) t.after ∧
      final (keyNext K aesEncrypt) events s =
        final (keyNext K aesEncrypt) (future.map Step.input) t.after := by
  have hevents : events = past.map Step.input ++ t.input :: future.map Step.input := by
    rw [← trace_map_input (keyNext K aesEncrypt) events s, hsplit, List.map_append, List.map_cons]
  obtain ⟨-, hrest⟩ := trace_eq_append hsplit
  obtain ⟨hstep, hfuture⟩ := trace_eq_cons hrest.symm
  refine ⟨hevents, hstep, hfuture, ?_⟩
  rw [hevents, final_append, final_cons]
  conv_rhs => rw [hstep]
  rfl

/-- **Loading a key gives the key that was created, until it is deleted.** Over every run of
requests, evictions and restarts, at whatever times, whether or not the key is cached. -/
theorem loaded_key_created
    (hcipher : ∀ nonce plaintext ciphertext, aesEncrypt nonce plaintext = .ok ciphertext →
      K.aesDecrypt nonce ciphertext = .ok plaintext)
    (events : List KeyEvent) (s : WalletStore) (hstart : ∀ id, s.cachedKeys id = none)
    (hfiles : ∀ e ∈ events, e.FilesSucceed) (hfresh : (events.filterMap KeyEvent.drawnId).Nodup)
    (hunused : ∀ id ∈ events.filterMap KeyEvent.drawnId, s.keyFiles id = none)
    (past future : List KeyStep) (t : KeyStep)
    (hsplit : trace (keyNext K aesEncrypt) events s = past ++ t :: future)
    (call : CreateCall) (info : StoredWallet) (hinput : t.input = .create call)
    (houtput : t.output = .created (.ok info)) (now : Nat) :
    ((∀ d ∈ future, ¬Deletes info.id d) →
      ((final (keyNext K aesEncrypt) events s).backend.loadKeyBytes K now info.id).1 =
        .ok call.key.bytes) ∧
    ((∃ d ∈ future, Deletes info.id d) →
      ∃ e, ((final (keyNext K aesEncrypt) events s).backend.loadKeyBytes K now info.id).1 =
        .error e) := by
  obtain ⟨hevents, hstep, hfuture, hfinal⟩ := split_events hsplit
  rw [hinput] at hevents hstep
  -- the id is drawn once
  have hdrawn : (KeyEvent.create call).drawnId = some call.walletId := rfl
  rw [hevents, List.filterMap_append, List.filterMap_cons_some hdrawn] at hfresh
  obtain ⟨-, hnodup, hdisjoint⟩ := List.nodup_append.mp hfresh
  have hbefore : ∀ e ∈ past.map Step.input, e.drawnId ≠ some call.walletId := fun e he hdrawn =>
    hdisjoint _ (List.mem_filterMap.mpr ⟨e, he, hdrawn⟩) _ List.mem_cons_self rfl
  have hafter : ∀ e ∈ future.map Step.input, e.drawnId ≠ some call.walletId := fun e he hdrawn =>
    (List.nodup_cons.mp hnodup).1 (List.mem_filterMap.mpr ⟨e, he, hdrawn⟩)
  rw [hevents] at hfiles hunused
  obtain ⟨hpastFiles, hfiles⟩ := List.forall_mem_append.mp hfiles
  obtain ⟨hcallFiles, hfutureFiles⟩ := List.forall_mem_cons.mp hfiles
  -- up to its creation the wallet has no key
  have hunused : s.keyFiles call.walletId = none :=
    hunused _ (List.mem_filterMap.mpr ⟨_, List.mem_append_right _ List.mem_cons_self, rfl⟩)
  have hready : Agrees K call.walletId none
      (final (keyNext K aesEncrypt) (past.map Step.input) s) :=
    (Agrees.of_unused hunused (hstart _)).run hpastFiles hbefore (Or.inl rfl)
  have houtput : ((final (keyNext K aesEncrypt) (past.map Step.input) s).createWallet K aesEncrypt
      call).1 = .ok info := by
    rw [hstep] at houtput
    exact KeyReply.created.inj houtput
  have hid : info.id = call.walletId := id_of_created hcallFiles houtput
  have hcreated : Agrees K call.walletId (some call.key.bytes) t.after := by
    rw [hstep]
    exact hready.created hcipher hcallFiles houtput
  rw [hfinal, hid]
  constructor
  · intro hkept
    rw [hfuture] at hkept
    exact (hcreated.run hfutureFiles hafter (Or.inr hkept)).load_ok now
  · rintro ⟨d, hd, hdeletes⟩
    obtain ⟨between, later, hlater⟩ := List.append_of_mem hd
    have hsplit' := hfuture.symm.trans hlater
    obtain ⟨hevents', hstep', -, hfinal'⟩ := split_events hsplit'
    obtain ⟨deletion, hdinput, hdid, hdoutput⟩ := hdeletes
    rw [hdinput] at hevents' hstep'
    rw [hevents'] at hfutureFiles hafter
    obtain ⟨-, hfutureFiles⟩ := List.forall_mem_append.mp hfutureFiles
    obtain ⟨hdeletionFiles, hlaterFiles⟩ := List.forall_mem_cons.mp hfutureFiles
    have hgone : Agrees K call.walletId none d.after := by
      rw [hstep'] at hdoutput ⊢
      rw [← hdid]
      exact Agrees.deleted hdeletionFiles (KeyReply.done.inj hdoutput)
    rw [hfinal']
    exact (hgone.run hlaterFiles (fun e he => hafter e (List.mem_append_right _
      (List.mem_cons_of_mem _ he))) (Or.inl rfl)).load_error now

end

/-! ### One key -/

/-- The key under AES-256-GCM, with the master key 00, 01, .. 1f and a nonce of zeros. -/
def oneCiphertext : List UInt8 :=
  hexBytes "93dd04435ad1d9ddb22ce3c18ac0bd5d960a933a53b30936f0a51f80d95122361321aab2b248f3e5e14035279269c64a"

def oneEncrypt (nonce plaintext : List UInt8) : Except String (List UInt8) :=
  if nonce = List.replicate 12 0 ∧ plaintext = oneKey then .ok oneCiphertext
  else .error "aead::Error"

def oneKeyCrypto : WalletCrypto :=
  { oneWalletCrypto "" with
    aesDecrypt := fun nonce ciphertext =>
      if nonce = List.replicate 12 0 ∧ ciphertext = oneCiphertext then .ok oneKey
      else .error "aead::Error" }

theorem oneKeyCrypto_decrypts (nonce plaintext ciphertext : List UInt8)
    (h : oneEncrypt nonce plaintext = .ok ciphertext) :
    oneKeyCrypto.aesDecrypt nonce ciphertext = .ok plaintext := by
  unfold oneEncrypt at h
  split at h
  · rename_i hone
    rw [← Except.ok.inj h, hone.2]
    exact if_pos ⟨hone.1, rfl⟩
  · cases h

/-- The key is created, used and evicted, and the daemon restarted. -/
def oneKeyEvents : List KeyEvent :=
  [.create (firstCall ⟨.written, true⟩), .load "w1" 5, .evict 301000000000, .restart]

theorem oneKey_loaded :
    ((final (keyNext oneKeyCrypto oneEncrypt) oneKeyEvents .empty).backend.loadKeyBytes oneKeyCrypto
      301000000001 "w1").1 = .ok oneKey := by
  obtain ⟨info, hcreated⟩ : ∃ info, (WalletStore.empty.createWallet oneKeyCrypto oneEncrypt
      (firstCall ⟨.written, true⟩)).1 = .ok info := isOk_iff_exists.mp (by decide +kernel)
  have hfiles : ∀ e ∈ oneKeyEvents, e.FilesSucceed := by
    simp [oneKeyEvents, KeyEvent.FilesSucceed, firstCall, IndexSave.Done]
  have hid : info.id = "w1" := id_of_created (hfiles _ List.mem_cons_self) hcreated
  have hfresh : (oneKeyEvents.filterMap KeyEvent.drawnId).Nodup := by decide
  have hkept : ∀ d ∈ trace (keyNext oneKeyCrypto oneEncrypt) oneKeyEvents.tail
      (WalletStore.empty.createWallet oneKeyCrypto oneEncrypt (firstCall ⟨.written, true⟩)).2,
      ¬Deletes info.id d := by
    rintro d hd ⟨call, hinput, -⟩
    have hmem := List.mem_map_of_mem (f := Step.input) hd
    rw [trace_map_input, hinput] at hmem
    simp [oneKeyEvents] at hmem
  rw [← hid]
  exact (loaded_key_created oneKeyCrypto_decrypts oneKeyEvents .empty (fun _ => rfl) hfiles hfresh
    (fun _ _ => rfl) [] _ _ rfl _ info rfl (congrArg KeyReply.created hcreated) 301000000001).1 hkept

end OsModa.Keyd
