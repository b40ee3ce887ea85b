import OsModa.Gateway.ConfigSteps

/-!
What becomes of the changes that requests make to the agents.

A request that waits for a probe goes on with the snapshot that it began with, and writes all of it.
The file is what the requests make of it one after the other as long as no request writes a snapshot
that the file has left behind (`updates_kept`).
-/

namespace OsModa.Gateway

open OsModa.Js OsModa.Machine ConfigState

/-- The first agent with an id is patched. -/
def patchFirst (id : JsString) (body : Fields) (now : JsString) : List AgentFields → List AgentFields
  | [] => []
  | a :: rest =>
    if a.hasId id then a.patched body now :: rest else a :: patchFirst id body now rest

namespace AgentsUpdate

/-- What a request by itself makes of the agents. -/
def apply : AgentsUpdate → AgentsFile → AgentsFile
  | .patch id body now, f => { f with agents := patchFirst id body now f.agents }
  | .put agents bindings now, f =>
    ⟨agents.map (AgentFields.normalized now), bindings.getD f.bindings⟩
  | .delete id, f => ⟨f.agents.eraseP (AgentFields.hasId id), otherBindings id f.bindings⟩

/-- What it makes of the file. -/
def write (f : AgentsFile) (u : AgentsUpdate) : AgentsFile := (u.apply f).saved

end AgentsUpdate

/-- The changes that were answered with success, in the order of the answers. -/
def updates (run : List ConfigStep) : List AgentsUpdate := run.filterMap fun t => t.output.update?

/-- The file is what the requests of a run make of it, one after the other in some order. -/
def KeepsUpdates (file : AgentsFile) (run : List ConfigStep) (after : AgentsFile) : Prop :=
  ∃ order : List AgentsUpdate, order.Perm (updates run) ∧
    after = order.foldl AgentsUpdate.write file

/-- A snapshot holds what the file holds. -/
def UpToDate (c : Config) (ref : Nat) : Prop := (c.snapshots ref).content.saved = c.file.saved

/-- What an update is made to is up to date; of what a `PUT` replaces, nothing need be. -/
def BaseFits (c : Config) (ref : Nat) : AgentsUpdate → Prop
  | .put _ (some _) _ => True
  | .put _ none _ => Value.savedItems c.current.bindings = Value.savedItems c.file.bindings
  | .patch _ _ _ | .delete _ => UpToDate c ref

/-- What the state must be before a step. -/
structure StepFits (s : ConfigState) (input : ConfigInput) : Prop where
  base : ∀ ref update snapshot, Changes s input ref update snapshot → BaseFits s.toConfig ref update
  /-- A `PATCH` that goes on changes the agent that its id stands for, if there is one. -/
  found : ∀ n health w id body ref tag, input = .probed n health w →
    JsMap.get? s.pending n = some (.patch id body ref tag) →
      ∀ e, (s.snapshots ref).findAgent id = some e → e.1 = tag

/-! ### Changes and writing -/

theorem savedFields_patched (body : Fields) (now : JsString) (a : AgentFields) :
    Value.savedFields (a.patched body now) =
      AgentFields.patched (Value.savedFields body) now (Value.savedFields a) := by
  rw [AgentFields.patched, Value.savedFields_set, AgentFields.patched, Value.saved]
  congr 1
  generalize patchKeys = keys
  induction keys generalizing a with
  | nil => rfl
  | cons key rest ih =>
    rw [List.foldl_cons, List.foldl_cons, ih, Value.get?_savedFields]
    congr 1
    cases body.get? key with
    | none => rfl
    | some v => exact Value.savedFields_set a key v

theorem patchFirst_saved (id : JsString) (body : Fields) (now : JsString)
    (agents : List AgentFields) : (patchFirst id body now agents).map Value.savedFields =
      patchFirst id (Value.savedFields body) now (agents.map Value.savedFields) := by
  induction agents with
  | nil => rfl
  | cons a rest ih =>
    rw [patchFirst, List.map_cons, patchFirst, hasId_saved]
    split
    · rw [List.map_cons, savedFields_patched]
    · rw [List.map_cons, ih]

theorem any_isBindingOf_saved (id : JsString) (b : Value) :
    (isBindingOf id b.saved).any (· = true) = (isBindingOf id b).any (· = true) := by
  cases b with
  | object fields =>
    rw [Value.saved, isBindingOf, isBindingOf, Value.fields, Value.fields, Option.map_some,
      Option.map_some, Value.get?_savedFields, strictEq_saved]
  | number text =>
    rw [Value.saved]
    split <;> rfl
  | _ => rfl

theorem otherBindings_saved (id : JsString) (bindings : List Value) :
    Value.savedItems (otherBindings id bindings) =
      otherBindings id (Value.savedItems bindings) := by
  rw [Value.savedItems_eq_map, Value.savedItems_eq_map, otherBindings, otherBindings,
    List.filter_map]
  refine congrArg (List.map Value.saved) (List.filter_congr fun b _ => ?_)
  rw [Function.comp_apply, any_isBindingOf_saved]

theorem saved_saved (f : AgentsFile) : f.saved.saved = f.saved := by
  rw [AgentsFile.saved, AgentsFile.saved, List.map_map, Value.savedItems_savedItems]
  congr 1
  exact List.map_congr_left fun a _ => Value.savedFields_savedFields a

namespace AgentsUpdate

/-- An update makes the same of what was written. -/
theorem write_saved (u : AgentsUpdate) (f : AgentsFile) : write f.saved u = write f u := by
  cases u with
  | patch id body now =>
    have hagents : (patchFirst id body now (f.agents.map Value.savedFields)).map Value.savedFields =
        (patchFirst id body now f.agents).map Value.savedFields := by
      rw [patchFirst_saved, patchFirst_saved, List.map_map]
      congr 1
      exact List.map_congr_left fun a _ => Value.savedFields_savedFields a
    simp only [write, apply, AgentsFile.saved, hagents, Value.savedItems_savedItems]
  | put agents bindings now =>
    cases bindings with
    | none => simp only [write, apply, AgentsFile.saved, Option.getD_none,
        Value.savedItems_savedItems]
    | some bindings => simp only [write, apply, AgentsFile.saved, Option.getD_some]
  | delete id =>
    have hagents : (f.agents.map Value.savedFields).eraseP (AgentFields.hasId id) =
        (f.agents.eraseP (AgentFields.hasId id)).map Value.savedFields := by
      rw [List.eraseP_map]
      refine congrArg (fun p => (f.agents.eraseP p).map Value.savedFields) (funext fun a => ?_)
      exact hasId_saved id a
    have hsaved : (apply (.delete id) f.saved) = (apply (.delete id) f).saved := by
      simp only [apply, AgentsFile.saved, hagents, otherBindings_saved]
    rw [write, hsaved, saved_saved, write]

end AgentsUpdate

/-! ### One step -/

/-- What is changed under a tag is the first agent with an id. -/
theorem map_patch_eq_patchFirst {entries : List (Nat × AgentFields)} {id : JsString} {tag : Nat}
    (hnodup : (entries.map Prod.fst).Nodup)
    (hfirst : ∀ e, entries.find? (fun e => e.2.hasId id) = some e → e.1 = tag)
    (hid : ∀ e ∈ entries, e.1 = tag → e.2.hasId id = true) (body : Fields) (now : JsString) :
    (entries.map fun e => if e.1 = tag then (e.1, e.2.patched body now) else e).map Prod.snd =
      patchFirst id body now (entries.map Prod.snd) := by
  induction entries with
  | nil => rfl
  | cons e rest ih =>
    rw [List.map_cons, List.map_cons, List.map_cons, patchFirst]
    obtain ⟨hnew, hrest⟩ := List.nodup_cons.mp hnodup
    by_cases hhas : e.2.hasId id = true
    · have htag : e.1 = tag := hfirst e (by rw [List.find?_cons, hhas])
      have hothers : ∀ d ∈ rest, d.1 ≠ tag := fun d hd heq =>
        hnew (htag.trans heq.symm ▸ List.mem_map_of_mem hd)
      have hsame : (rest.map fun e => if e.1 = tag then (e.1, e.2.patched body now) else e) = rest := by
        conv_rhs => rw [← List.map_id rest]
        refine List.map_congr_left ?_
        intro d hd
        rw [if_neg (hothers d hd)]
        rfl
      rw [if_pos htag, if_pos hhas, hsame]
    · have htag : e.1 ≠ tag := fun heq => hhas (hid e List.mem_cons_self heq)
      rw [if_neg htag, if_neg hhas]
      congr 1
      refine ih hrest (fun d hd => hfirst d ?_) fun d hd => hid d (List.mem_cons_of_mem _ hd)
      rw [List.find?_cons, Bool.eq_false_iff.mpr hhas]
      exact hd

theorem content_patchAgent {snapshot : Snapshot} {id : JsString} {tag : Nat}
    (hfirst : ∀ e, snapshot.findAgent id = some e → e.1 = tag)
    (hid : ∀ e ∈ snapshot.entries, e.1 = tag → e.2.hasId id = true) (body : Fields)
    (now : JsString) : (snapshot.patchAgent tag body now).content =
      (AgentsUpdate.patch id body now).apply snapshot.content := by
  rw [Snapshot.content, AgentsUpdate.apply]
  congr 1
  exact map_patch_eq_patchFirst snapshot.nodup_tags hfirst hid body now

/-- A change that is saved is made to the file. -/
theorem saved_of_changes {s : ConfigState} (hs : s.Sound) {input : ConfigInput} {ref : Nat}
    {update : AgentsUpdate} {snapshot : Snapshot} (h : Changes s input ref update snapshot)
    (hfits : StepFits s input) : snapshot.content.saved = update.write s.file := by
  have hbase := hfits.base ref update snapshot h
  have hcontent : ∀ ref, UpToDate s.toConfig ref →
      update.write (s.snapshots ref).content = update.write s.file := by
    intro ref hcurrent
    rw [← update.write_saved, hcurrent, update.write_saved]
  cases h with
  | @patchNow id v body tag a w hfound hbody hchecked hsame =>
    rw [← hcontent s.live hbase, AgentsUpdate.write]
    refine congrArg AgentsFile.saved (content_patchAgent (fun e he => ?_) (fun e he htag => ?_) _ _)
    · rw [← Option.some.inj (hfound.symm.trans he)]
    · obtain ⟨hmem, hid⟩ := findAgent_eq_some hfound
      rwa [List.inj_on_of_nodup_map s.current.nodup_tags he hmem htag]
  | @patchLater n id body ref tag health w hpending havailable =>
    rw [← hcontent ref hbase, AgentsUpdate.write]
    obtain ⟨-, -, hid, -⟩ := hs.pending n _ hpending
    exact congrArg AgentsFile.saved
      (content_patchAgent (hfits.found n health w id body ref tag rfl hpending) hid body w.now)
  | @put _ p health now hput hchecked =>
    rw [AgentsUpdate.write, AgentsUpdate.apply, AgentsFile.saved, AgentsFile.saved,
      Snapshot.content, Snapshot.putAgents]
    dsimp only
    rw [map_snd_tagged]
    congr 1
    cases hbindings : bindingsOf p.bindings with
    | some bindings => rfl
    | none =>
      rw [hbindings] at hbase
      exact hbase
  | @delete id e w hfound =>
    rw [← hcontent s.live hbase, AgentsUpdate.write]
    refine congrArg AgentsFile.saved ?_
    rw [AgentsUpdate.apply, Snapshot.content]
    congr 1
    rw [Snapshot.content, List.eraseP_map]
    rfl

/-- The step lemma. -/
theorem file_next {s : ConfigState} (hs : s.Sound) {input : ConfigInput}
    (hfits : StepFits s input) : (configNext input s).2.file =
      ((configNext input s).1.update?.toList).foldl AgentsUpdate.write s.file := by
  obtain ⟨base, hbase, houtcome⟩ := outcome_next s input
  have hconfig : base.toConfig = s.toConfig := by
    rcases hbase with rfl | ⟨n, rfl⟩ <;> rfl
  have hfile : base.file = s.file := congrArg Config.file hconfig
  generalize configNext input s = r at houtcome
  cases houtcome with
  | same hnone => rw [hnone]; exact hfile
  | waits => exact hfile
  | reloads hanswer =>
    rcases hanswer with rfl | rfl <;> rfl
  | @credentials _ _ reloads _ =>
    cases reloads <;> rfl
  | unwritten => rfl
  | noDriver => rfl
  | splices => rfl
  | saves hchange => exact saved_of_changes hs hchange hfits

/-! ### Runs -/

theorem updates_concat (run : List ConfigStep) (t : ConfigStep) :
    updates (run ++ [t]) = updates run ++ t.output.update?.toList := by
  rw [updates, List.filterMap_append]
  cases h : t.output.update? <;> simp [updates, h]

/-- No change is lost in a run of which every step makes its change to what the file holds. -/
theorem updates_kept (file : AgentsFile) (credentials : CredentialsFile)
    (inputs : List ConfigInput)
    (h : ∀ t ∈ trace configNext inputs (.boot file credentials), StepFits t.before t.input) :
    KeepsUpdates file (trace configNext inputs (.boot file credentials))
      (final configNext inputs (.boot file credentials)).file := by
  have hrun := @history_invariant_of _ _ _ configNext
    (fun past s => s.Sound ∧ s.file = (updates past).foldl AgentsUpdate.write file)
    (fun _ t => StepFits t.before t.input)
    (fun input past s hs hfits => by
      refine ⟨sound_next input s hs.1, ?_⟩
      rw [updates_concat, List.foldl_append, ← hs.2]
      exact file_next hs.1 hfits)
    inputs [] (.boot file credentials) ⟨.boot file credentials, rfl⟩
    (fun past t future hsplit => h t (hsplit ▸ List.mem_append_right _ List.mem_cons_self))
  exact ⟨_, .refl _, hrun.2⟩

section Runs

/-- A change of a model by itself. -/
theorem updates_kept_one : StepFits (.boot sampleFile .empty)
      (sampleUpdate "b" [(utf16 "model", .string (utf16 "n"))]) ∧
    KeepsUpdates sampleFile (trace configNext
        [sampleUpdate "b" [(utf16 "model", .string (utf16 "n"))]] (.boot sampleFile .empty))
      (final configNext [sampleUpdate "b" [(utf16 "model", .string (utf16 "n"))]]
        (.boot sampleFile .empty)).file := by
  have hfits : StepFits (.boot sampleFile .empty)
      (sampleUpdate "b" [(utf16 "model", .string (utf16 "n"))]) := by
    refine ⟨fun ref update snapshot h => ?_, fun _ _ _ _ _ _ _ h => by cases h⟩
    cases h with
    | patchNow => exact congrArg AgentsFile.saved rfl
    | put hput => cases hput
  refine ⟨hfits, updates_kept sampleFile .empty _ fun t ht => ?_⟩
  rw [List.mem_singleton.mp ht]
  exact hfits

/-- While a change of `a` waits for a probe, the file is loaded and `b` is changed; then the probe
is over. -/
def staleInputs : List ConfigInput :=
  [sampleUpdate "a" [(utf16 "runtime", .string (utf16 "openclaw"))], .sighup,
    sampleUpdate "b" [(utf16 "model", .string (utf16 "n"))], .probed 0 ⟨true, none⟩ sampleMoment]

/-- The model of `b` is the new one. -/
def hasNewModel (f : AgentsFile) : Bool :=
  f.agents.any fun a => a.hasId (utf16 "b") && Value.strictEq a.model (some (.string (utf16 "n")))

theorem stale_patch_undoes : ¬ ∀ file credentials inputs, KeepsUpdates file
    (trace configNext inputs (.boot file credentials))
    (final configNext inputs (.boot file credentials)).file := by
  intro h
  obtain ⟨order, hperm, hfile⟩ := h sampleFile .empty staleInputs
  have hrun : updates (trace configNext staleInputs (.boot sampleFile .empty)) =
      [.patch (utf16 "b") [(utf16 "model", .string (utf16 "n"))] [],
        .patch (utf16 "a") [(utf16 "runtime", .string (utf16 "openclaw"))] []] := rfl
  have hlost : hasNewModel (final configNext staleInputs (.boot sampleFile .empty)).file = false := by
    decide +kernel
  rw [hrun] at hperm
  rw [hfile] at hlost
  match order, hperm with
  | [u, v], hperm =>
    have hu := hperm.subset List.mem_cons_self
    have hv := hperm.subset (List.mem_cons_of_mem u List.mem_cons_self)
    have hpatched := hperm.symm.subset List.mem_cons_self
    -- Either order changes the model; so would making the change twice.
    rcases List.mem_pair.mp hu with rfl | rfl <;> rcases List.mem_pair.mp hv with rfl | rfl
    · revert hlost
      decide +kernel
    · revert hlost
      decide +kernel
    · revert hlost
      decide +kernel
    · rcases List.mem_pair.mp hpatched with heq | heq <;> cases heq
  | [], hperm => exact absurd hperm.length_eq (by decide)
  | [_], hperm => exact absurd hperm.length_eq (by simp)
  | _ :: _ :: _ :: _, hperm => exact absurd hperm.length_eq (by simp)

end Runs

end OsModa.Gateway
