import DukBridge.KeyAccounts

/-!
# Which loader an environment is bound to

The entries of the pool belong to live environments, to structs that are exposed to scripts,
or to a loader whose key was 0.
-/
namespace DukBridge

open Rendezvous KeyStore

variable {L S : Type} [DecidableEq L] [DecidableEq S] {clock : Nat → Int64}
  {p p' : V2KPool (PoolVal L S) Nat} {held : KeyEntries L S} {m m' : LoaderKeyMap}

/-! ### What is alive -/

/-- An environment that has not been destroyed, with the loaders it was made with. -/
structure LiveEnv (L : Type) where
  jsEnv : JSEnv
  plugin : L
  loader : Option L
  counted : jsEnv.loaderKey.length = (plugin :: loader.toList).length

/-- A struct whose keys are drawn. -/
structure Exposed (S : Type) where
  modKey : Int64
  info : GoModuleInfo S
  counted : info.methodKeys.length = info.nMethods

/-- A struct with an object of its own, which has not been finalized. -/
structure Instance (S : Type) extends Exposed S where
  obj : NativeObj
  handle : obj.modHandle.toInt64 = modKey

def LiveEnv.bound (e : LiveEnv L) : List (Int64 × L) :=
  e.jsEnv.loaderKey.zip (e.plugin :: e.loader.toList)

def LiveEnv.entries (e : LiveEnv L) : KeyEntries L S := loaderEntries e.jsEnv.env e.bound

def Exposed.entries (x : Exposed S) : KeyEntries L S := moduleEntries x.modKey x.info

omit [DecidableEq L] in
theorem LiveEnv.map_fst_bound (e : LiveEnv L) : e.bound.map Prod.fst = e.jsEnv.loaderKey :=
  List.map_fst_zip (Nat.le_of_eq e.counted)

theorem runs_jsDestroyEnv {heap : List (Instance S)} {u : Unit}
    (holds : PoolHolds clock p (heap.flatMap (·.entries) ++ held))
    (ran : Runs clock p (jsDestroyEnv (heap.map (·.obj)) : KeyProg L S Unit) u p') :
    PoolHolds clock p' held := by
  induction heap generalizing p with
  | nil =>
    obtain ⟨_, rfl⟩ := runs_pure.mp ran
    exact holds
  | cons i rest ih =>
    obtain ⟨call, q, finalized, others⟩ := runs_bind.mp ran
    have own : PoolHolds clock p (moduleEntries i.obj.modHandle.toInt64 i.info ++
        (rest.flatMap (·.entries) ++ held)) := by
      rw [i.handle, ← List.append_assoc]
      exact holds
    obtain ⟨_, left⟩ := runs_goFinalizeModule i.counted own finalized
    exact ih left others

theorem runs_destroy {e : LiveEnv L} {heap : List (Instance S)} {u : Unit}
    (holds : PoolHolds clock p (heap.flatMap (·.entries) ++ (e.entries ++ held)))
    (ran : Runs clock p ((destroy e.jsEnv (heap.map (·.obj)) : GoProg L S Unit).run m)
      (u, m') p') :
    m' = Function.update m e.jsEnv.env none ∧
      PoolHolds clock p'
        (loaderEntries e.jsEnv.env (e.bound.filter fun b => b.1 = 0) ++ held) := by
  obtain ⟨_, n, q, forgotten, rest⟩ := runs_bind_state.mp ran
  obtain ⟨rfl, rfl⟩ := runs_modify.mp forgotten
  obtain ⟨_, n', r, destroyed, last⟩ := runs_bind_state.mp rest
  obtain ⟨finalized, rfl⟩ := runs_lift.mp destroyed
  obtain ⟨removed, rfl⟩ := runs_lift.mp last
  rw [← e.map_fst_bound] at removed
  exact ⟨rfl, runs_removeLoaders (runs_jsDestroyEnv holds finalized) removed⟩

/-! ### Runs -/

/-- The globals of the package, with what uses their entries. -/
structure Process (L S : Type) where
  pool : V2KPool (PoolVal L S) Nat
  firstLoaderKey : LoaderKeyMap
  live : List (LiveEnv L)
  /-- Loaders under the key 0 whose environment is destroyed. -/
  stale : KeyEntries L S
  /-- Structs that have keys but no object. -/
  exposed : List (Exposed S)
  instances : List (Instance S)

namespace Process

def init (clock : Nat → Int64) : Process L S :=
  ⟨methodKeyGenerator clock, fun _ => none, [], [], [], []⟩

def entries (st : Process L S) : KeyEntries L S :=
  st.live.flatMap LiveEnv.entries ++
    (st.stale ++ (st.exposed.flatMap Exposed.entries ++ st.instances.flatMap (·.entries)))

end Process

/-- `Destroy` of a live environment; `heap` is the order its objects are finalized in. -/
inductive Destroys (clock : Nat → Int64) (st : Process L S) (e : LiveEnv L) :
    Process L S → Prop where
  | intro {before after m pool} {heap : List (Instance S)} (alive : st.live = before ++ e :: after)
      (inside : heap.Perm (st.instances.filter fun i => i.obj.env = e.jsEnv.env))
      (ran : Runs clock st.pool
        ((destroy e.jsEnv (heap.map (·.obj)) : GoProg L S Unit).run st.firstLoaderKey) ((), m) pool) :
      Destroys clock st e
        { st with
          pool
          firstLoaderKey := m
          live := before ++ after
          stale := loaderEntries e.jsEnv.env (e.bound.filter fun b => b.1 = 0) ++ st.stale
          instances := st.instances.filter fun i => i.obj.env ≠ e.jsEnv.env }

inductive Process.Step [GoStructs S] (clock : Nat → Int64) : Process L S → Process L S → Prop where
  /-- The address may be that of an environment destroyed before. -/
  | newEnv {st} {e : LiveEnv L} {m pool} (unused : ∀ e' ∈ st.live, e'.jsEnv.env ≠ e.jsEnv.env)
      (ran : Runs clock st.pool
        ((newEnv e.jsEnv.env e.plugin e.loader : GoProg L S JSEnv).run st.firstLoaderKey)
        (e.jsEnv, m) pool) :
      Step clock st { st with pool, firstLoaderKey := m, live := e :: st.live }
  | destroy {st e st'} (destroys : Destroys clock st e st') : Step clock st st'
  | expose {st} {x : Exposed S} {pool} (methods : x.info.nMethods = GoStructs.numMethod x.info.structP)
      (ran : Runs clock st.pool
        (createMethodKeys x.info.structPtr x.info.structP : KeyProg L S (Int64 × List Int64))
        (x.modKey, x.info.methodKeys) pool) :
      Step clock st { st with pool, exposed := x :: st.exposed }
  /-- By `go_createEcmascriptObject` of an environment, or by `loadNativeModule` for one of its
  loaders. -/
  | create {st} {e : LiveEnv L} {i : Instance S} {before after} (alive : e ∈ st.live)
      (waiting : st.exposed = before ++ i.toExposed :: after)
      (made : goCreateEcmascriptObject st.firstLoaderKey e.jsEnv.env i.modKey.toUInt64 = some i.obj ∨
        ∃ key ∈ e.jsEnv.loaderKey, ∃ modName,
          i.obj = ⟨e.jsEnv.env, key.toUInt64, modName, i.modKey.toUInt64⟩) :
      Step clock st { st with exposed := before ++ after, instances := i :: st.instances }
  | finalize {st} {i : Instance S} {before after call pool} (alive : st.instances = before ++ i :: after)
      (ran : Runs clock st.pool
        (goFinalizeModule i.obj.udd i.obj.modName i.obj.modHandle : KeyProg L S _) call pool) :
      Step clock st { st with pool, instances := before ++ after }

/-- Runs from the start of the program in which every reading is unused when drawn. -/
abbrev Process.FreshRun [GoStructs S] (clock : Nat → Int64) : Process L S → Prop :=
  Relation.ReflTransGen (Process.Step clock) (.init clock)

/-! ### The invariant -/

structure Process.Accounted (clock : Nat → Int64) (st : Process L S) : Prop where
  holds : PoolHolds clock st.pool st.entries
  /-- No two live environments share an address. -/
  addresses : (st.live.map (·.jsEnv.env)).Nodup
  first : ∀ e ∈ st.live, st.firstLoaderKey e.jsEnv.env = e.jsEnv.loaderKey.head?

variable {st st' : Process L S} {e : LiveEnv L}

omit [DecidableEq L] [DecidableEq S] in
theorem accounted_init : (Process.init clock : Process L S).Accounted clock :=
  ⟨poolHolds_init, List.nodup_nil, fun _ member => by cases member⟩

theorem accounted_newEnv (inv : st.Accounted clock) {pool : V2KPool (PoolVal L S) Nat}
    (unused : ∀ e' ∈ st.live, e'.jsEnv.env ≠ e.jsEnv.env)
    (ran : Runs clock st.pool
      ((newEnv e.jsEnv.env e.plugin e.loader : GoProg L S JSEnv).run st.firstLoaderKey)
      (e.jsEnv, m) pool) :
    Process.Accounted clock { st with pool, firstLoaderKey := m, live := e :: st.live } := by
  obtain ⟨_, _, rfl, holds⟩ := runs_newEnv inv.holds ran
  constructor
  · simpa [Process.entries, LiveEnv.entries, LiveEnv.bound] using holds
  · refine List.nodup_cons.mpr ⟨?_, inv.addresses⟩
    simpa using unused
  · intro e' member
    rcases List.mem_cons.mp member with rfl | older
    · exact Function.update_self ..
    · exact (Function.update_of_ne (unused e' older) ..).trans (inv.first e' older)

/-- The entries of one environment and of the objects in its heap, apart from all others. -/
theorem entries_perm_destroyed {before after : List (LiveEnv L)} {heap : List (Instance S)}
    (alive : st.live = before ++ e :: after)
    (inside : heap.Perm (st.instances.filter fun i => i.obj.env = e.jsEnv.env)) :
    st.entries.Perm (heap.flatMap (·.entries) ++ (e.entries ++
      { st with
        live := before ++ after
        instances := st.instances.filter fun i => i.obj.env ≠ e.jsEnv.env : Process L S }.entries)) := by
  have envs : st.live.Perm (e :: (before ++ after)) := alive ▸ List.perm_middle
  have objects : (heap ++ st.instances.filter fun i => i.obj.env ≠ e.jsEnv.env).Perm
      st.instances := by
    refine (inside.append_right _).trans ?_
    simpa using List.filter_append_perm (fun i => decide (i.obj.env = e.jsEnv.env)) st.instances
  have envs := envs.flatMap_right (LiveEnv.entries (S := S))
  have objects := objects.flatMap_right fun i => (i.entries : KeyEntries L S)
  rw [List.perm_iff_count] at envs objects ⊢
  intro entry
  have envs := envs entry
  have objects := objects entry
  simp only [Process.entries, List.flatMap_cons, List.flatMap_append, List.count_append] at *
  omega

omit [DecidableEq L] [DecidableEq S] in
theorem perm_stale (st : Process L S) (kept : KeyEntries L S) :
    (kept ++ st.entries).Perm { st with stale := kept ++ st.stale : Process L S }.entries := by
  simp only [Process.entries, List.append_assoc]
  exact List.perm_append_comm_assoc ..

theorem accounted_destroy (inv : st.Accounted clock) (destroys : Destroys clock st e st') :
    st'.Accounted clock := by
  obtain ⟨alive, inside, ran⟩ := destroys
  rename_i before after m pool heap
  obtain ⟨rfl, holds⟩ := runs_destroy (inv.holds.perm (entries_perm_destroyed alive inside)) ran
  have addresses : ((before ++ e :: after).map (·.jsEnv.env)).Nodup := alive ▸ inv.addresses
  rw [(List.perm_middle.map _).nodup_iff, List.map_cons, List.nodup_cons] at addresses
  obtain ⟨own, addresses⟩ := addresses
  constructor
  · exact holds.perm (perm_stale _ _)
  · exact addresses
  · intro e' member
    have older : e' ∈ st.live := by
      rw [alive, List.perm_middle.mem_iff]
      exact List.mem_cons_of_mem _ member
    have apart : e'.jsEnv.env ≠ e.jsEnv.env := by
      intro same
      exact own (same ▸ List.mem_map_of_mem member)
    exact (Function.update_of_ne apart ..).trans (inv.first e' older)

theorem entries_perm_exposed (x : Exposed S) : (x.entries ++ st.entries).Perm
    { st with exposed := x :: st.exposed : Process L S }.entries := by
  rw [List.perm_iff_count]
  intro entry
  simp only [Process.entries, List.flatMap_cons, List.count_append]
  omega

theorem entries_perm_created {i : Instance S} {before after : List (Exposed S)}
    (waiting : st.exposed = before ++ i.toExposed :: after) : st.entries.Perm
    { st with exposed := before ++ after, instances := i :: st.instances : Process L S }.entries := by
  rw [List.perm_iff_count]
  intro entry
  simp only [Process.entries, waiting, List.flatMap_cons, List.flatMap_append, List.count_append]
  omega

theorem entries_perm_finalized {i : Instance S} {before after : List (Instance S)}
    (alive : st.instances = before ++ i :: after) : st.entries.Perm
    (i.entries ++ { st with instances := before ++ after : Process L S }.entries) := by
  rw [List.perm_iff_count]
  intro entry
  simp only [Process.entries, alive, List.flatMap_cons, List.flatMap_append, List.count_append]
  omega

theorem accounted_step [GoStructs S] (step : st.Step clock st') (inv : st.Accounted clock) :
    st'.Accounted clock := by
  cases step with
  | newEnv unused ran => exact accounted_newEnv inv unused ran
  | destroy destroys => exact accounted_destroy inv destroys
  | expose methods ran =>
    obtain ⟨_, holds⟩ := runs_createMethodKeys inv.holds ran
    rw [← methods] at holds
    exact ⟨holds.perm (entries_perm_exposed _), inv.addresses, inv.first⟩
  | create alive waiting made =>
    exact ⟨inv.holds.perm (entries_perm_created waiting), inv.addresses, inv.first⟩
  | finalize alive ran =>
    rename_i i before after call pool
    have own := inv.holds.perm (entries_perm_finalized alive)
    rw [Exposed.entries, ← i.handle] at own
    obtain ⟨_, holds⟩ := runs_goFinalizeModule i.counted own ran
    exact ⟨holds, inv.addresses, inv.first⟩

theorem accounted_run [GoStructs S] (run : Process.FreshRun clock st) : st.Accounted clock := by
  -- over the run: each step leaves every entry with its owner
  induction run with
  | refl => exact accounted_init
  | tail _ step ih => exact accounted_step step ih

/-! ### What a loader key resolves to -/

/-- `getModuleLoader` finds this loader and this environment. -/
def Resolves (p : V2KPool (PoolVal L S) Nat) (loaderKey : Int64) (le : L × Word) : Prop :=
  runAlone V2KPool.protocol p (getModuleLoader loaderKey : KeyProg L S _).run =
    some (.ok (.ok le), p)

theorem resolves_iff {key : Int64} {le : L × Word} :
    Resolves p key le ↔ p.k2v (.int64 key) = some (.moduleLoaderEnv ⟨le.1, le.2⟩) := by
  have found : p.getVal (.int64 key) = .ok ((p.k2v (.int64 key)).getD .nil) :=
    getVal_sound ⟨p, []⟩ (.int64 key)
  have reply : V2KPool.protocol.serve p ⟨.k2v, .int64 key⟩ =
      .reply ((p.k2v (.int64 key)).getD .nil) p := by
    simp only [V2KPool.protocol, V2KPool.bgLoop, found]
  change runAlone _ p (.call (OpWithData.mk .k2v (PoolVal.int64 key)) _) = _ ↔ _
  simp only [runAlone, reply]
  -- only a record with a loader answers
  cases p.k2v (.int64 key) with
  | none =>
    constructor
    · intro absurd
      cases absurd
    · intro absurd
      cases absurd
  | some v =>
    cases v with
    | moduleLoaderEnv found =>
      change some (Except.ok (Except.ok (found.loader, found.env)), p) = _ ↔ _
      obtain ⟨loader, env⟩ := found
      obtain ⟨loader', env'⟩ := le
      simp
    | _ =>
      constructor
      · intro absurd
        cases absurd
      · intro absurd
        cases absurd

/-- Every live environment is found by its keys. -/
structure LoadersBound (st : Process L S) : Prop where
  first : ∀ e ∈ st.live, ∃ key, st.firstLoaderKey e.jsEnv.env = some key ∧
    Resolves st.pool key (e.plugin, e.jsEnv.env)
  every : ∀ e ∈ st.live, ∀ key ∈ e.jsEnv.loaderKey,
    ∃ loader ∈ e.plugin :: e.loader.toList, Resolves st.pool key (loader, e.jsEnv.env)

/-- After the destruction of `e` its keys resolve no more, except a key 0, and nothing has
changed for the others. -/
structure Unbound (st st' : Process L S) (e : LiveEnv L) : Prop where
  gone : ∀ key ∈ e.jsEnv.loaderKey, key ≠ 0 → ∀ le, ¬ Resolves st'.pool key le
  others : ∀ e' ∈ st.live, e'.jsEnv.env ≠ e.jsEnv.env → e' ∈ st'.live ∧
    st'.firstLoaderKey e'.jsEnv.env = st.firstLoaderKey e'.jsEnv.env ∧
    ∀ key ∈ e'.jsEnv.loaderKey, ∀ le, Resolves st'.pool key le ↔ Resolves st.pool key le

omit [DecidableEq L] in
theorem LiveEnv.exists_bound {e : LiveEnv L} {key : Int64} (own : key ∈ e.jsEnv.loaderKey) :
    ∃ loader, (key, loader) ∈ e.bound := by
  rw [← e.map_fst_bound] at own
  simpa using own

omit [DecidableEq L] [DecidableEq S] in
theorem mem_entries {key : Int64} {loader : L} (alive : e ∈ st.live)
    (bound : (key, loader) ∈ e.bound) :
    (.int64 key, .moduleLoaderEnv ⟨loader, e.jsEnv.env⟩) ∈ st.entries :=
  List.mem_append_left _ (List.mem_flatMap.mpr ⟨e, alive, List.mem_map_of_mem bound⟩)

omit [DecidableEq L] [DecidableEq S] in
theorem resolves_of_bound (inv : st.Accounted clock) {key : Int64} {loader : L}
    (alive : e ∈ st.live) (bound : (key, loader) ∈ e.bound) :
    st.pool.k2v (.int64 key) = some (.moduleLoaderEnv ⟨loader, e.jsEnv.env⟩) := by
  rw [inv.holds.lists.exact]
  exact mem_entries alive bound

theorem loadersBound_of_accounted (inv : st.Accounted clock) : LoadersBound st := by
  constructor
  · intro e alive
    have counted := e.counted
    cases keys : e.jsEnv.loaderKey with
    | nil => simp [keys] at counted
    | cons key rest =>
      have bound : (key, e.plugin) ∈ e.bound := by simp [LiveEnv.bound, keys]
      refine ⟨key, ?_, resolves_iff.mpr (resolves_of_bound inv alive bound)⟩
      rw [inv.first e alive, keys]
      rfl
  · intro e alive key own
    obtain ⟨loader, bound⟩ := e.exists_bound own
    exact ⟨loader, (List.of_mem_zip bound).2, resolves_iff.mpr (resolves_of_bound inv alive bound)⟩

theorem unbound_of_accounted (inv : st.Accounted clock) (destroys : Destroys clock st e st') :
    Unbound st st' e := by
  have inv' := accounted_destroy inv destroys
  obtain ⟨alive, inside, ran⟩ := destroys
  rename_i before after m pool heap
  have apart := inv.holds.perm (entries_perm_destroyed alive inside)
  obtain ⟨forgot, _⟩ := runs_destroy apart ran
  constructor
  · intro key own nonzero le resolves
    obtain ⟨loader, bound⟩ := e.exists_bound own
    rw [resolves_iff, inv'.holds.lists.exact] at resolves
    let rest := { st with
      live := before ++ after
      instances := st.instances.filter fun i => i.obj.env ≠ e.jsEnv.env }
    have split := perm_stale rest (loaderEntries e.jsEnv.env (e.bound.filter fun b => b.1 = 0))
    rcases List.mem_append.mp (split.mem_iff.mpr resolves) with kept | others
    · -- what is kept of `e` is under 0
      obtain ⟨b, member, same⟩ := List.mem_map.mp kept
      simp only [Prod.mk.injEq, PoolVal.int64.injEq] at same
      exact nonzero (same.1 ▸ by simpa using (List.mem_filter.mp member).2)
    · -- and nobody else has an entry under a key of `e`
      have mine : (.int64 key) ∈ Ledger.keys (e.entries : KeyEntries L S) :=
        Ledger.mem_keys.mpr ⟨_, List.mem_map_of_mem bound⟩
      have theirs := Ledger.mem_keys.mpr ⟨_, others⟩
      have distinct := apart.lists.distinct
      simp only [Ledger.keys, List.map_append] at distinct mine theirs
      exact List.disjoint_of_nodup_append (List.nodup_append.mp distinct).2.1 mine theirs
  -- the other environments keep their handles and what they stand for
  · intro e' older other
    have member : e' ∈ before ++ after := by
      rw [alive, List.perm_middle.mem_iff, List.mem_cons] at older
      exact older.resolve_left fun same => other (by rw [same])
    refine ⟨member, ?_, ?_⟩
    · change m _ = _
      rw [forgot, Function.update_of_ne other]
    · intro key own le
      obtain ⟨loader, bound⟩ := e'.exists_bound own
      rw [resolves_iff, resolves_iff, resolves_of_bound inv older bound,
        resolves_of_bound inv' member bound]

/-- In every run of `NewEnv`, `Destroy` and everything else that uses the pool, with readings
that are unused when drawn. -/
theorem loaders_bound [GoStructs S] (clock : Nat → Int64) (st : Process L S) (run : Process.FreshRun clock st) :
    LoadersBound st ∧ ∀ e st', Destroys clock st e st' → Unbound st st' e :=
  ⟨loadersBound_of_accounted (accounted_run run),
    fun _ _ destroys => unbound_of_accounted (accounted_run run) destroys⟩

/-! ### Two environments -/

/-- The loaders are told apart by a flag; this one is the plugin loader. -/
def pluginLoader : Bool := true

def envAt (env : Word) (key : Int64) : LiveEnv Bool :=
  ⟨⟨env, [key]⟩, pluginLoader, none, rfl⟩

/-- The second environment has a loader of its own besides the plugin loader. -/
def envWithLoader (env : Word) (key key' : Int64) : LiveEnv Bool :=
  ⟨⟨env, [key, key']⟩, pluginLoader, some false, rfl⟩

/-- `Destroy` takes a key 0 for none at all. -/
theorem key_zero_still_resolves : ∃ st e st',
    Process.FreshRun (S := Greeter) (fun n => Int64.ofNat n) st ∧
      Destroys (fun n => Int64.ofNat n) st e st' ∧
      ∃ key ∈ e.jsEnv.loaderKey, Resolves st'.pool key (pluginLoader, e.jsEnv.env) := by
  have start : Process.FreshRun (L := Bool) (S := Greeter) (fun n => Int64.ofNat n) _ := .refl
  have created := start.tail (.newEnv (e := envAt 64 0) (fun _ member => by cases member)
    (.reply (fun _ => rfl) rfl .pure))
  exact ⟨_, envAt 64 0, _, created,
    @Destroys.intro Bool Greeter _ _ _ _ _ [] [] _ _ [] rfl (.refl _) .pure, 0, by decide, rfl⟩

/-- The first of two environments is destroyed, and its address used again. -/
theorem loaders_bound_twoEnvs : ∃ st, Process.FreshRun (S := Greeter)
      (fun n => Int64.ofNat (n + 1)) st ∧
    st.live = [envAt 64 4, envWithLoader 128 2 3] ∧ LoadersBound st ∧
      ∃ st', Destroys (fun n => Int64.ofNat (n + 1)) st (envAt 64 4) st' ∧
        Unbound st st' (envAt 64 4) := by
  have start : Process.FreshRun (L := Bool) (S := Greeter) (fun n => Int64.ofNat (n + 1)) _ := .refl
  have first := start.tail (.newEnv (e := envAt 64 1) (fun _ member => by cases member)
    (.reply (fun _ => rfl) rfl .pure))
  have second := first.tail (.newEnv (e := envWithLoader 128 2 3)
    (fun _ member => by rw [List.mem_singleton.mp member]; decide)
    (.reply (fun _ => rfl) rfl (.reply (fun _ => rfl) rfl .pure)))
  have destroyed := second.tail (.destroy (@Destroys.intro Bool Greeter _ _ _ _ (envAt 64 1)
    [envWithLoader 128 2 3] [] _ _ [] rfl (.refl _) (.silent (fun stores => by cases stores) rfl .pure)))
  have third := destroyed.tail (.newEnv (e := envAt 64 4)
    (fun _ member => by rw [List.mem_singleton.mp member]; decide)
    (.reply (fun _ => rfl) rfl .pure))
  have bound := loaders_bound _ _ third
  refine ⟨_, third, rfl, bound.1, ?_⟩
  refine Exists.imp (fun _ destroys => ⟨destroys, bound.2 _ _ destroys⟩) ⟨_,
    @Destroys.intro Bool Greeter _ _ _ _ _ [] [envWithLoader 128 2 3] _ _ [] rfl (.refl _)
      (.silent (fun stores => by cases stores) rfl .pure)⟩

end DukBridge
