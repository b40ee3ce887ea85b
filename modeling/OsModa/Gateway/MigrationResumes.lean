import OsModa.Gateway.MigrationCrashes

/-!
That a boot after crashes ends as one that does not die (`migration_resumes`): every secret is in
the store once, and the agents are the same but for the times and for the ids of credentials.
-/

namespace OsModa.Gateway

open OsModa.Js OsModa.Machine

/-! ### Secrets -/

namespace Layout

variable (l : Layout)

/-- The secrets of what there is to migrate. -/
def sources : List Value :=
  (l.entries.filterMap entrySecret ++ l.imported.map NewCredential.secret).map Value.saved

/-- Absorbing throws at no entry, it passes over none whose secret is not in the store, and the
secrets of the others, of what is imported and of what is in the store are distinct. -/
structure Distinct : Prop where
  throws : ∀ e ∈ l.entries, absorbEntry l.before e ≠ .throws
  skipped : ∀ e ∈ l.entries, absorbEntry l.before e = .skipped →
    ∀ s, entrySecret e = some s → s.saved ∈ l.before.map StoredCredential.secret
  nodup : (l.before.map StoredCredential.secret ++
    (l.absorbed ++ l.imported).map fun c => c.secret.saved).Nodup

/-- There is one credential for each secret of what was there and of what there is to migrate. -/
structure OncePerSecret (credentials : List StoredCredential) : Prop where
  kept : l.before <+: credentials
  nodup : (credentials.map StoredCredential.secret).Nodup
  mem_iff : ∀ s, s ∈ credentials.map StoredCredential.secret ↔
    s ∈ l.before.map StoredCredential.secret ∨ s ∈ l.sources

variable {l} {credentials credentials' : List StoredCredential}

theorem secret_of_bootstrapCredential {c : Fields} {secret : Value} {new : NewCredential}
    (h : bootstrapCredential c secret = some new) : new.secret = secret := by
  rw [bootstrapCredential] at h
  split at h
  · split at h
    · rw [← Option.some.inj h]
    · obtain ⟨label, -, hmade⟩ := Option.bind_eq_some_iff.mp h
      rw [← Option.some.inj hmade]
  · obtain ⟨label, -, hmade⟩ := Option.bind_eq_some_iff.mp h
    rw [← Option.some.inj hmade]

/-- An entry is added with its secret. -/
theorem entrySecret_of_added {existing : List StoredCredential} {e : Value} {c : NewCredential}
    (h : absorbEntry existing e = .added c) : entrySecret e = some c.secret := by
  rw [absorbEntry] at h
  rw [entrySecret]
  cases hfields : e.fields with
  | none =>
    rw [hfields] at h
    cases h
  | some fields =>
    rw [hfields] at h
    rw [Option.bind_some]
    dsimp only at h
    split at h
    · cases h
    · rename_i secret hsecret
      rw [hsecret]
      split at h
      · cases h
      · split at h
        · cases h
        · cases h
        · split at h
          · cases h
          · rename_i new hnew
            obtain rfl := Absorbed.added.inj h
            rw [secret_of_bootstrapCredential hnew]

theorem mem_absorbed_iff {c : NewCredential} :
    c ∈ l.absorbed ↔ ∃ e ∈ l.entries, absorbEntry l.before e = .added c := by
  rw [absorbed, absorbedFrom, List.mem_filterMap]
  constructor
  · rintro ⟨e, he, hnew⟩
    refine ⟨e, he, ?_⟩
    cases hentry : absorbEntry l.before e with
    | throws | skipped =>
      rw [hentry] at hnew
      cases hnew
    | added c' =>
      rw [hentry] at hnew
      rw [Option.some.inj hnew]
  · rintro ⟨e, he, hadded⟩
    exact ⟨e, he, by rw [hadded]; rfl⟩

theorem Holds.map_secret {done : List NewCredential} (h : l.Holds credentials done) :
    credentials.map StoredCredential.secret =
      l.before.map StoredCredential.secret ++ done.map NewCredential.secret := by
  obtain ⟨news, rfl, rfl, -⟩ := h.exists_news
  rw [List.map_append, List.map_map]
  rfl

theorem map_secret_news :
    l.news.map NewCredential.secret = (l.absorbed ++ l.imported).map fun c => c.secret.saved := by
  rw [news, List.map_map]
  rfl

theorem Holds.oncePerSecret (hdistinct : l.Distinct) (h : l.Holds credentials l.news) :
    l.OncePerSecret credentials := by
  have hsecrets := h.map_secret
  rw [map_secret_news] at hsecrets
  refine ⟨?_, hsecrets ▸ hdistinct.nodup, fun s => ?_⟩
  · obtain ⟨news, rfl, -, -⟩ := h.exists_news
    exact List.prefix_append _ _
  · rw [hsecrets, List.mem_append, sources, List.map_append, List.mem_append, List.map_append,
      List.mem_append, List.map_map]
    constructor
    · rintro (hbefore | habsorbed | himported)
      · exact .inl hbefore
      · obtain ⟨c, hc, rfl⟩ := List.mem_map.mp habsorbed
        obtain ⟨e, he, hadded⟩ := mem_absorbed_iff.mp hc
        exact .inr (.inl (List.mem_map_of_mem
          (List.mem_filterMap.mpr ⟨e, he, entrySecret_of_added hadded⟩)))
      · exact .inr (.inr himported)
    · rintro (hbefore | hentry | himported)
      · exact .inl hbefore
      · obtain ⟨secret, hsecret, rfl⟩ := List.mem_map.mp hentry
        obtain ⟨e, he, hof⟩ := List.mem_filterMap.mp hsecret
        cases habsorb : absorbEntry l.before e with
        | throws => exact absurd habsorb (hdistinct.throws e he)
        | skipped => exact .inl (hdistinct.skipped e he habsorb secret hof)
        | added c =>
          obtain rfl := Option.some.inj (hof.symm.trans (entrySecret_of_added habsorb))
          exact .inr (.inl (List.mem_map.mpr ⟨c, mem_absorbed_iff.mpr ⟨e, he, habsorb⟩, rfl⟩))
      · exact .inr (.inr himported)

end Layout

/-! ### Agents -/

/-- Agents are the same but for their times and for the ids of their credentials, which are at the
same place. -/
structure SameAgent (credentials credentials' : List StoredCredential) (a a' : AgentFields) :
    Prop where
  others : ∀ key, key ≠ utf16 "credential_id" → key ≠ utf16 "updated_at" →
    a.get? key = a'.get? key
  credential : (a.credentialId = some (.string []) ∧ a'.credentialId = some (.string [])) ∨
    ∃ (i : Nat) (c c' : StoredCredential), credentials[i]? = some c ∧ credentials'[i]? = some c' ∧
      a.credentialId = some (.string c.id) ∧ a'.credentialId = some (.string c'.id)

/-- The outcomes of two migrations are the same but for fresh ids and for times. -/
structure SameMigration (credentials credentials' : List StoredCredential)
    (agents agents' : Option (Option AgentsFile)) : Prop where
  cores : credentials.map StoredCredential.core = credentials'.map StoredCredential.core
  sameAgents : agents = agents' ∨ ∃ f f', agents = some (some f) ∧ agents' = some (some f') ∧
    f.bindings = f'.bindings ∧ List.Forall₂ (SameAgent credentials credentials') f.agents f'.agents

namespace Layout

variable {l : Layout} {credentials credentials' : List StoredCredential} {done : List NewCredential}

theorem Holds.map_core (h : l.Holds credentials done) :
    credentials.map StoredCredential.core = l.before.map StoredCredential.core ++ done := by
  obtain ⟨news, rfl, rfl, -⟩ := h.exists_news
  exact List.map_append

/-- At a place, two stores that hold the same have no id or both have one. -/
theorem idAt_eq_nil_iff (h : l.Holds credentials done) (h' : l.Holds credentials' done) (i : Nat) :
    idAt credentials i = [] ↔ idAt credentials' i = [] := by
  obtain ⟨news, rfl, hnews, hids⟩ := h.exists_news
  obtain ⟨news', rfl, hnews', hids'⟩ := h'.exists_news
  have hlength : news.length = news'.length := by
    rw [← List.length_map StoredCredential.core, hnews, ← hnews', List.length_map]
  rcases Nat.lt_or_ge i l.before.length with hold | hnew
  · rw [idAt_append hold, idAt_append hold]
  · rw [idAt, idAt, List.getElem?_append_right hnew, List.getElem?_append_right hnew]
    rcases Nat.lt_or_ge (i - l.before.length) news.length with hin | hout
    · have hin' : i - l.before.length < news'.length := hlength ▸ hin
      rw [List.getElem?_eq_getElem hin, List.getElem?_eq_getElem hin']
      exact iff_of_false (hids _ (List.getElem_mem hin)) (hids' _ (List.getElem_mem hin'))
    · rw [List.getElem?_eq_none hout, List.getElem?_eq_none (hlength ▸ hout)]

section Agents

variable (name displayName model : String) (channels : List String) (runtime now now' : JsString)

theorem credentialId_mkAgent (credentialId : Option JsString) :
    AgentFields.credentialId (Value.savedFields
      (mkAgent name displayName model channels runtime now credentialId)) =
        some (.string (credentialId.getD [])) := by
  rw [AgentFields.credentialId, Value.get?_savedFields]
  rfl

theorem sameAgent_mkAgent (h : l.Holds credentials done) (h' : l.Holds credentials' done)
    (place : Option Nat) :
    SameAgent credentials credentials'
      (Value.savedFields
        (mkAgent name displayName model channels runtime now (place.map (idAt credentials))))
      (Value.savedFields
        (mkAgent name displayName model channels runtime now' (place.map (idAt credentials')))) := by
  have hlength : credentials.length = credentials'.length := by rw [h.length_eq, h'.length_eq]
  have henabled : (place.map (idAt credentials)).any (· ≠ []) =
      (place.map (idAt credentials')).any (· ≠ []) := by
    cases place with
    | none => rfl
    | some i => exact decide_eq_decide.mpr (not_congr (idAt_eq_nil_iff h h' i))
  refine ⟨fun key hcredential htime => ?_, ?_⟩
  · rw [Value.get?_savedFields, Value.get?_savedFields, mkAgent, mkAgent, henabled]
    simp only [Fields.get?, if_neg hcredential.symm, if_neg htime.symm]
  · rw [credentialId_mkAgent, credentialId_mkAgent]
    cases place with
    | none => exact .inl ⟨rfl, rfl⟩
    | some i =>
      rcases Nat.lt_or_ge i credentials.length with hin | hout
      · have hin' : i < credentials'.length := hlength ▸ hin
        refine .inr ⟨i, credentials[i], credentials'[i], List.getElem?_eq_getElem hin,
          List.getElem?_eq_getElem hin', ?_, ?_⟩
        · rw [Option.map_some, Option.getD_some, idAt, List.getElem?_eq_getElem hin]
          rfl
        · rw [Option.map_some, Option.getD_some, idAt, List.getElem?_eq_getElem hin']
          rfl
      · rw [Option.map_some, Option.getD_some, Option.map_some, Option.getD_some, idAt, idAt,
          List.getElem?_eq_none hout, List.getElem?_eq_none (hlength ▸ hout)]
        exact .inl ⟨rfl, rfl⟩

end Agents

theorem sameMigration_of_finished {agents agents' : Option (Option AgentsFile)}
    (h : l.Finished credentials agents) (h' : l.Finished credentials' agents') :
    SameMigration credentials credentials' agents agents' := by
  refine ⟨by rw [h.holds.map_core, h'.holds.map_core], ?_⟩
  have hagents := h.agents
  have hagents' := h'.agents
  split at hagents
  · rename_i hfresh
    rw [if_pos hfresh] at hagents'
    obtain ⟨now, rfl⟩ := hagents
    obtain ⟨now', rfl⟩ := hagents'
    refine .inr ⟨_, _, rfl, rfl, rfl, ?_⟩
    exact .cons (sameAgent_mkAgent _ _ _ _ _ _ _ h.holds h'.holds _)
      (.cons (sameAgent_mkAgent _ _ _ _ _ _ _ h.holds h'.holds _) .nil)
  · rename_i hfresh
    rw [if_neg hfresh] at hagents'
    exact .inl (hagents.trans hagents'.symm)

end Layout

/-! ### Runs -/

/-- What is there once `s` and `s'` have ended, `s` after crashes and `s'` without one. -/
structure Resumed {E : Type} (p : StorePlatform E) (l : Layout) (s s' : StoreState E) : Prop where
  running : (∃ cache, s.phase = .running cache) ∧ ∃ cache, s'.phase = .running cache
  same : ∃ f f', p.contents s.disk.toCredentialFiles = some f ∧
    p.contents s'.disk.toCredentialFiles = some f' ∧ l.OncePerSecret f.credentials ∧
    SameMigration f.credentials f'.credentials s.disk.agents s'.disk.agents

section Runs

variable {E : Type} {p : StorePlatform E} {legacy : LegacyFiles} {disk : StoreDisk E}
  {file : CredentialsFile}

theorem entriesOf_eq_nil {bootstrap : Option BootstrapText} (h : Layout.NoEntries bootstrap) :
    entriesOf bootstrap = [] := by
  rw [entriesOf]
  exact h

theorem reached_init (hfile : p.contents disk.toCredentialFiles = some file)
    (hsaved : file.saved = file)
    (hthrows : ∀ e ∈ entriesOf disk.bootstrap, absorbEntry file.credentials e ≠ .throws) :
    (layoutOf legacy disk file).Reached p ⟨disk, .start⟩ := by
  have hholds : (layoutOf legacy disk file).Holds file.credentials [] :=
    ⟨[], (List.append_nil _).symm, rfl, fun _ h => (by cases h)⟩
  refine ⟨file, hfile, hsaved, ?_⟩
  by_cases hentries : Layout.NoEntries disk.bootstrap
  · refine .inr ⟨hentries, .inl ⟨?_, rfl⟩⟩
    rw [Layout.absorbed, show (layoutOf legacy disk file).entries = [] from entriesOf_eq_nil hentries]
    exact hholds
  · obtain ⟨todo, htodo⟩ := not_forall_not.mp hentries
    have htodo' : (layoutOf legacy disk file).entries = todo := by
      rw [layoutOf, htodo, entriesOf]
    exact .inl ⟨by rw [htodo']; exact htodo, ⟨[], hholds, List.nil_append _⟩, hthrows, rfl⟩

/-- The run lemma. -/
theorem reached_run {l : Layout} {s : StoreState E} (hs : l.Reached p s) (inputs : List BootInput)
    (hfits : ∀ t ∈ trace (bootRun p l.legacy) inputs s, CrashFits p t.before t.input) :
    l.Reached p (final (bootRun p l.legacy) inputs s) :=
  @final_invariant_of _ _ _ (bootRun p l.legacy) (l.Reached p)
    (fun t => CrashFits p t.before t.input) (fun input _ h hfits => reached_next h input hfits)
    inputs s hs hfits

theorem reached_boots {l : Layout} {s : StoreState E} (hs : l.Reached p s)
    (clocks : List BootClock) :
    l.Reached p (final (bootRun p l.legacy) (clocks.map BootInput.step) s) := by
  induction clocks generalizing s with
  | nil => exact hs
  | cons c rest ih => exact ih (Layout.reached_boot hs)

theorem Layout.Reached.finished {l : Layout} {s : StoreState E} (h : l.Reached p s)
    {cache : AgentsFile} (hphase : s.phase = .running cache) :
    ∃ f, p.contents s.disk.toCredentialFiles = some f ∧ l.Finished f.credentials s.disk.agents := by
  obtain ⟨f, hf, -, hreaches⟩ := h
  rw [hphase] at hreaches
  exact ⟨f, hf, hreaches.2⟩

end Runs

/-- However often the boot dies in a run with such crashes only, a boot that then ends leaves what
one that never dies leaves. -/
theorem migration_resumes {E : Type} (p : StorePlatform E) (legacy : LegacyFiles)
    (disk : StoreDisk E) (file : CredentialsFile)
    (hfile : p.contents disk.toCredentialFiles = some file) (hsaved : file.saved = file)
    (hdistinct : (layoutOf legacy disk file).Distinct) (inputs : List BootInput)
    (hfits : ∀ t ∈ trace (bootRun p legacy) inputs ⟨disk, .start⟩, CrashFits p t.before t.input)
    (rerun steps : List BootClock)
    (hrerun : stepsLeft legacy (final (bootRun p legacy) inputs ⟨disk, .start⟩) ≤ rerun.length)
    (hsteps : stepsLeft legacy ⟨disk, .start⟩ ≤ steps.length) :
    Resumed p (layoutOf legacy disk file)
      (final (bootRun p legacy) (inputs ++ rerun.map .step) ⟨disk, .start⟩)
      (final (bootRun p legacy) (steps.map .step) ⟨disk, .start⟩) := by
  have hinit : (layoutOf legacy disk file).Reached p ⟨disk, .start⟩ :=
    reached_init hfile hsaved hdistinct.throws
  obtain ⟨cache, hcache⟩ := boot_ends (p := p) rerun hrerun
  obtain ⟨cache', hcache'⟩ := boot_ends (p := p) steps hsteps
  have hafter := reached_boots (reached_run hinit inputs hfits) rerun
  rw [final_append]
  obtain ⟨f, hf, hfinished⟩ := hafter.finished hcache
  obtain ⟨f', hf', hfinished'⟩ := (reached_boots hinit steps).finished hcache'
  exact ⟨⟨⟨cache, hcache⟩, cache', hcache'⟩, f, f', hf, hf',
    hfinished.holds.oncePerSecret hdistinct, Layout.sameMigration_of_finished hfinished hfinished'⟩

section Runs

def sampleClock : BootClock := ⟨sampleKey, sampleKey, [], [], []⟩

/-- An entry with a label: what was added for it is told by a boot that begins again. -/
def labelledDisk : StoreDisk (List UInt8 × CredentialsFile) :=
  { sampleDisk with bootstrap := some (.entries
      [.object [(utf16 "label", .string (utf16 "m")), (utf16 "secret", .string (utf16 "t"))]]) }

/-- The process dies once the entry of the bootstrap file is added. -/
def absorbedInputs : List BootInput := [.step sampleClock, .step sampleClock, .crash none]

theorem distinct_labelledDisk : (layoutOf noLegacy labelledDisk sampleStored).Distinct := by
  refine ⟨fun e he => ?_, fun e he hskipped => ?_, ?_⟩
  · obtain rfl := List.mem_singleton.mp he
    exact fun h => by cases h
  · obtain rfl := List.mem_singleton.mp he
    cases hskipped
  · refine List.nodup_cons.mpr ⟨fun h => ?_, List.nodup_singleton _⟩
    have hsame := Value.string.inj (List.mem_singleton.mp h)
    revert hsame
    decide

theorem crashFits_absorbed :
    ∀ t ∈ trace (bootRun samplePlatform noLegacy) absorbedInputs ⟨labelledDisk, .start⟩,
      CrashFits samplePlatform t.before t.input := by
  intro t ht
  rcases List.mem_cons.mp ht with rfl | ht
  · trivial
  rcases List.mem_cons.mp ht with rfl | ht
  · trivial
  obtain rfl := List.mem_singleton.mp ht
  intro file hfile gone hgone
  obtain rfl := Option.some.inj hfile
  have hentries : _ = gone ++ [] := BootstrapText.entries.inj (Option.some.inj hgone)
  rw [List.append_nil] at hentries
  obtain rfl := hentries
  refine ⟨fun e he => ?_, fun e he => by cases he⟩
  obtain rfl := List.mem_singleton.mp he
  rfl

/-- A label is kept, so that the boot after the crash tells the entry. -/
theorem migration_resumes_absorbed :
    samplePlatform.contents labelledDisk.toCredentialFiles = some sampleStored ∧
      Resumed samplePlatform (layoutOf noLegacy labelledDisk sampleStored)
        (final (bootRun samplePlatform noLegacy)
          (absorbedInputs ++ (List.replicate 9 sampleClock).map .step) ⟨labelledDisk, .start⟩)
        (final (bootRun samplePlatform noLegacy)
          ((List.replicate 9 sampleClock).map .step) ⟨labelledDisk, .start⟩) :=
  ⟨contents_sampleDisk, migration_resumes samplePlatform noLegacy labelledDisk sampleStored
    contents_sampleDisk rfl distinct_labelledDisk absorbedInputs crashFits_absorbed
    (List.replicate 9 sampleClock) (List.replicate 9 sampleClock) (Nat.le_refl 9) (Nat.le_refl 9)⟩

/-- Without a label the entry is stored under another, and is added again. -/
theorem crash_adds_again : ¬ ∀ (E : Type) (p : StorePlatform E) legacy disk file,
    p.contents (StoreDisk.toCredentialFiles disk) = some file → ∀ inputs (rerun steps : List BootClock),
      stepsLeft legacy (final (bootRun p legacy) inputs ⟨disk, .start⟩) ≤ rerun.length →
      stepsLeft legacy ⟨disk, .start⟩ ≤ steps.length →
        Resumed p (layoutOf legacy disk file)
          (final (bootRun p legacy) (inputs ++ rerun.map .step) ⟨disk, .start⟩)
          (final (bootRun p legacy) (steps.map .step) ⟨disk, .start⟩) := by
  intro h
  obtain ⟨f, -, hf, -, honce, -⟩ := (h _ samplePlatform noLegacy sampleDisk sampleStored
    contents_sampleDisk absorbedInputs (List.replicate 9 sampleClock)
    (List.replicate 9 sampleClock) (Nat.le_refl 9) (Nat.le_refl 9)).same
  have hsecrets : f.credentials.map StoredCredential.secret =
      [.string (utf16 "s"), .string (utf16 "t"), .string (utf16 "t")] := by
    obtain rfl := Option.some.inj hf
    rfl
  have hnodup := honce.nodup
  rw [hsecrets] at hnodup
  exact (List.nodup_cons.mp (List.nodup_cons.mp hnodup).2).1 (List.mem_singleton_self _)

end Runs

end OsModa.Gateway
