import DukBridge.ModuleLoaders

/-!
# What the functions store and remove

The pool is described by the list of its entries. Every function that draws keys adds the
entries it drew them for, and the one that hands them back takes the same entries away.
-/
namespace DukBridge

open Rendezvous KeyStore MethodKeyGenerator

variable {L S : Type} [DecidableEq L] [DecidableEq S] {clock : Nat → Int64}

abbrev KeyEntries (L S : Type) := Ledger (PoolVal L S) (PoolVal L S)

/-- The entries of the pool are these. -/
structure PoolHolds (clock : Nat → Int64) (p : V2KPool (PoolVal L S) Nat)
    (held : KeyEntries L S) : Prop where
  sound : KeyPool.Sound clock ⟨p, []⟩
  lists : Lists p.k2v held

variable {p p' : V2KPool (PoolVal L S) Nat} {held held' : KeyEntries L S}

omit [DecidableEq L] [DecidableEq S] in
theorem poolHolds_init : PoolHolds clock (methodKeyGenerator clock) ([] : KeyEntries L S) :=
  ⟨sound_init clock, Lists.empty⟩

omit [DecidableEq L] [DecidableEq S] in
theorem PoolHolds.perm (holds : PoolHolds clock p held) (same : held.Perm held') :
    PoolHolds clock p held' :=
  ⟨holds.sound, holds.lists.perm same⟩

/-! ### The methods of the pool -/

section Admitting

variable {admits : V2KPool (PoolVal L S) Nat → OpWithData (PoolVal L S) → Prop}

/-- The next reading becomes the key of `val`. -/
theorem keyProg_V2K (sound : KeyPool.Sound clock ⟨p, []⟩) {val : PoolVal L S}
    {out : Except (PoolVal L S) (PoolVal L S)}
    (ran : RunsAlone V2KPool.protocol admits p (V2K val).run (.ok out) p') :
    admits p (OpWithData.mk .v2k val) ∧ out = .ok (.int64 (clock p.gen)) ∧
      p' = { p with
        k2v := Function.update p.k2v (.int64 (clock p.gen)) (some val)
        gen := p.gen + 1 } := by
  change RunsAlone _ _ p (.call (OpWithData.mk .v2k val) _) _ p' at ran
  have drawn := val2Key_sound sound val
  cases ran with
  | reply admitted served rest =>
    simp only [V2KPool.protocol, V2KPool.bgLoop, drawn] at served
    cases served
    obtain ⟨same, rfl⟩ := runsAlone_pure.mp rest
    cases same
    exact ⟨admitted, rfl, rfl⟩
  | silent admitted served rest =>
    simp only [V2KPool.protocol, V2KPool.bgLoop, drawn] at served
    cases served

theorem keyProg_GetVal {key : Int64} {v : PoolVal L S}
    (ran : RunsAlone V2KPool.protocol admits p (GetVal key).run (.ok v) p') :
    v = (p.k2v (.int64 key)).getD .nil ∧ p' = p := by
  change RunsAlone _ _ p (.call (OpWithData.mk .k2v (PoolVal.int64 key)) _) _ p' at ran
  have found : p.getVal (.int64 key) = .ok ((p.k2v (.int64 key)).getD .nil) :=
    getVal_sound ⟨p, []⟩ (.int64 key)
  cases ran with
  | reply admitted served rest =>
    simp only [V2KPool.protocol, V2KPool.bgLoop, found] at served
    cases served
    obtain ⟨same, rfl⟩ := runsAlone_pure.mp rest
    cases same
    exact ⟨rfl, rfl⟩
  | silent admitted served rest =>
    simp only [V2KPool.protocol, V2KPool.bgLoop, found] at served
    cases served

theorem keyProg_RemoveKey (sound : KeyPool.Sound clock ⟨p, []⟩) {key : Int64} {u : Unit}
    (ran : RunsAlone V2KPool.protocol admits p (RemoveKey key : KeyProg L S Unit).run (.ok u) p') :
    p' = { p with k2v := Function.update p.k2v (.int64 key) none } := by
  change RunsAlone _ _ p (.call (OpWithData.mk .removeK (PoolVal.int64 key)) _) _ p' at ran
  have removed := removeKey_sound sound (.int64 key)
  cases ran with
  | reply admitted served rest =>
    simp only [V2KPool.protocol, V2KPool.bgLoop, removed] at served
    cases served
  | silent admitted served rest =>
    simp only [V2KPool.protocol, V2KPool.bgLoop, removed] at served
    cases served
    obtain ⟨_, rfl⟩ := runsAlone_pure.mp rest
    rfl

theorem keyProg_assertInt64 {out : Except (PoolVal L S) (PoolVal L S)} {key : Int64}
    (ran : RunsAlone V2KPool.protocol admits p
      (liftM (assertInt64 out) : KeyProg L S Int64).run (.ok key) p') :
    out = .ok (.int64 key) ∧ p' = p := by
  change RunsAlone _ _ p (.pure (assertInt64 out)) (.ok key) p' at ran
  obtain ⟨same, rfl⟩ := runsAlone_pure.mp ran
  refine ⟨?_, rfl⟩
  unfold assertInt64 at same
  split at same
  · cases same
    rfl
  · cases same

end Admitting

theorem runs_V2K (holds : PoolHolds clock p held) {val : PoolVal L S}
    {out : Except (PoolVal L S) (PoolVal L S)} (ran : Runs clock p (V2K val) out p') :
    ∃ key, out = .ok (.int64 key) ∧ PoolHolds clock p' ((.int64 key, val) :: held) := by
  obtain ⟨admitted, rfl, rfl⟩ := keyProg_V2K holds.sound ran
  refine ⟨_, rfl, ⟨holds.sound.generator, holds.sound.unhashed, holds.sound.noVals, .empty _⟩, ?_⟩
  exact holds.lists.insert (admitted rfl) val

theorem runs_GetVal {key : Int64} {v : PoolVal L S} (ran : Runs clock p (GetVal key) v p') :
    v = (p.k2v (.int64 key)).getD .nil ∧ p' = p := keyProg_GetVal ran

theorem runs_RemoveKey {key : Int64} {v : PoolVal L S} {u : Unit}
    (holds : PoolHolds clock p ((.int64 key, v) :: held))
    (ran : Runs clock p (RemoveKey key : KeyProg L S Unit) u p') : PoolHolds clock p' held := by
  rw [keyProg_RemoveKey holds.sound ran]
  exact ⟨⟨holds.sound.generator, holds.sound.unhashed, holds.sound.noVals, .empty _⟩,
    holds.lists.erase⟩

/-! ### The functions over them -/

theorem runs_assertInt64 {out : Except (PoolVal L S) (PoolVal L S)} {key : Int64}
    (ran : Runs clock p (liftM (assertInt64 out) : KeyProg L S Int64) key p') :
    out = .ok (.int64 key) ∧ p' = p := keyProg_assertInt64 ran

theorem runs_saveModuleLoader {loader : L} {env : Word} {key : Int64}
    (holds : PoolHolds clock p held)
    (ran : Runs clock p (saveModuleLoader loader env : KeyProg L S Int64) key p') :
    PoolHolds clock p' ((.int64 key, .moduleLoaderEnv ⟨loader, env⟩) :: held) := by
  obtain ⟨out, q, stored, asserted⟩ := runs_bind.mp ran
  obtain ⟨drawn, rfl, holds'⟩ := runs_V2K holds stored
  obtain ⟨same, rfl⟩ := runs_assertInt64 asserted
  cases same
  exact holds'

/-- The methods of a struct, from method `i` on. -/
def methodEntries (structP : S) : Nat → List Int64 → KeyEntries L S
  | _, [] => []
  | i, key :: keys => (.int64 key, .reflectValue structP i) :: methodEntries structP (i + 1) keys

def moduleEntries (modKey : Int64) (info : GoModuleInfo S) : KeyEntries L S :=
  (.int64 modKey, .goModuleInfo info) :: methodEntries info.structP 0 info.methodKeys

theorem runs_methodKeysFrom {structP : S} {i n : Nat} {keys : List Int64}
    (holds : PoolHolds clock p held)
    (ran : Runs clock p (methodKeysFrom structP i n : KeyProg L S (List Int64)) keys p') :
    keys.length = n ∧ PoolHolds clock p' (methodEntries structP i keys ++ held) := by
  induction n generalizing i keys p held with
  | zero =>
    obtain ⟨rfl, rfl⟩ := runs_pure.mp ran
    exact ⟨rfl, holds⟩
  | succ n ih =>
    obtain ⟨out, q, stored, ran⟩ := runs_bind.mp ran
    obtain ⟨drawn, rfl, holds⟩ := runs_V2K holds stored
    obtain ⟨key, r, asserted, ran⟩ := runs_bind.mp ran
    obtain ⟨same, rfl⟩ := runs_assertInt64 asserted
    cases same
    obtain ⟨rest, q', others, ran⟩ := runs_bind.mp ran
    obtain ⟨rfl, rfl⟩ := runs_pure.mp ran
    obtain ⟨count, holds⟩ := ih holds others
    exact ⟨by simp [count], holds.perm List.perm_middle⟩

theorem runs_createMethodKeys [GoStructs S] {structPtr structP : S} {modKey : Int64}
    {methodKeys : List Int64} (holds : PoolHolds clock p held)
    (ran : Runs clock p (createMethodKeys structPtr structP : KeyProg L S _)
      (modKey, methodKeys) p') :
    methodKeys.length = GoStructs.numMethod structP ∧
      PoolHolds clock p' (moduleEntries modKey
        ⟨structPtr, structP, GoStructs.numMethod structP, methodKeys⟩ ++ held) := by
  obtain ⟨keys, q, methods, ran⟩ := runs_bind.mp ran
  obtain ⟨count, holds⟩ := runs_methodKeysFrom holds methods
  obtain ⟨out, q', stored, ran⟩ := runs_bind.mp ran
  obtain ⟨drawn, rfl, holds⟩ := runs_V2K holds stored
  obtain ⟨key, r, asserted, ran⟩ := runs_bind.mp ran
  obtain ⟨same, rfl⟩ := runs_assertInt64 asserted
  cases same
  obtain ⟨same, rfl⟩ := runs_pure.mp ran
  cases same
  exact ⟨count, holds⟩

theorem runs_removeMethodKeys {structP : S} {before keys : List Int64} {u : Unit}
    (holds : PoolHolds clock p (methodEntries structP before.length keys ++ held))
    (ran : Runs clock p
      (removeMethodKeys (before ++ keys) before.length keys.length : KeyProg L S Unit) u p') :
    PoolHolds clock p' held := by
  induction keys generalizing before p with
  | nil =>
    obtain ⟨_, rfl⟩ := runs_pure.mp ran
    exact holds
  | cons key rest ih =>
    simp only [List.length_cons, removeMethodKeys, List.getElem?_append_right (Nat.le_refl _),
      Nat.sub_self, List.getElem?_cons_zero] at ran
    obtain ⟨_, q, removed, ran⟩ := runs_bind.mp ran
    have holds := runs_RemoveKey holds removed
    -- the key that is gone joins those before
    rw [← List.singleton_append, ← List.append_assoc] at ran
    rw [← List.length_singleton, ← List.length_append] at holds ran
    exact ih holds ran

theorem runs_removeModule {modKey : Int64} {info : GoModuleInfo S} {u : Unit}
    (counted : info.methodKeys.length = info.nMethods)
    (holds : PoolHolds clock p (moduleEntries modKey info ++ held))
    (ran : Runs clock p (removeModule modKey : KeyProg L S Unit) u p') :
    PoolHolds clock p' held := by
  obtain ⟨v, q, got, ran⟩ := runs_bind.mp ran
  obtain ⟨rfl, rfl⟩ := runs_GetVal got
  have found : q.k2v (.int64 modKey) = some (.goModuleInfo info) := by
    rw [holds.lists.exact]
    exact List.mem_append_left _ List.mem_cons_self
  rw [found] at ran
  obtain ⟨_, q', removed, ran⟩ := runs_bind.mp ran
  rw [← counted] at ran
  have holds := runs_RemoveKey holds removed
  have ran : Runs clock q' (removeMethodKeys ([] ++ info.methodKeys) ([] : List Int64).length
      info.methodKeys.length : KeyProg L S Unit) u p' := ran
  exact runs_removeMethodKeys holds ran

theorem runs_getModInfo {modKey : Int64} {info : GoModuleInfo S} {out : Option (GoModuleInfo S)}
    (stored : p.k2v (.int64 modKey) = some (.goModuleInfo info))
    (ran : Runs clock p (getModInfo modKey : KeyProg L S _) out p') :
    out = some info ∧ p' = p := by
  obtain ⟨v, q, got, ran⟩ := runs_bind.mp ran
  obtain ⟨rfl, rfl⟩ := runs_GetVal got
  rw [stored] at ran
  exact runs_pure.mp ran

theorem runs_getModuleLoader {loaderKey : Int64} {out : Except String (L × Word)}
    (ran : Runs clock p (getModuleLoader loaderKey : KeyProg L S _) out p') : p' = p := by
  obtain ⟨v, q, got, ran⟩ := runs_bind.mp ran
  obtain ⟨rfl, rfl⟩ := runs_GetVal got
  split at ran
  · exact (runs_pure.mp ran).2
  · exact (runs_pure.mp ran).2

/-- The finalizer of an object finds its module, whatever became of the loader. -/
theorem runs_goFinalizeModule {udd modHandle : Word} {modName : Bytes} {info : GoModuleInfo S}
    {call : FinalizeCall L S} (counted : info.methodKeys.length = info.nMethods)
    (holds : PoolHolds clock p (moduleEntries modHandle.toInt64 info ++ held))
    (ran : Runs clock p (goFinalizeModule udd modName modHandle) call p') :
    call ≠ .nilDereference ∧ PoolHolds clock p' held := by
  have stored : p.k2v (.int64 modHandle.toInt64) = some (.goModuleInfo info) := by
    rw [holds.lists.exact]
    exact List.mem_append_left _ List.mem_cons_self
  obtain ⟨modInfo, q, got, asking⟩ := runs_bind.mp ran
  obtain ⟨rfl, rfl⟩ := runs_getModInfo stored got
  obtain ⟨out, q', asked, removing⟩ := runs_bind.mp asking
  obtain rfl := runs_getModuleLoader asked
  cases out with
  | ok le =>
    obtain ⟨_, r, removed, ended⟩ := runs_bind.mp removing
    obtain ⟨rfl, rfl⟩ := runs_pure.mp ended
    exact ⟨(fun absurd => by cases absurd), runs_removeModule counted holds removed⟩
  | error text =>
    obtain ⟨_, r, removed, ended⟩ := runs_bind.mp removing
    obtain ⟨rfl, rfl⟩ := runs_pure.mp ended
    exact ⟨(fun absurd => by cases absurd), runs_removeModule counted holds removed⟩

/-! ### Creation and destruction -/

/-- Loader keys with the loaders they were drawn for. -/
def loaderEntries (env : Word) (bound : List (Int64 × L)) : KeyEntries L S :=
  bound.map fun b => (.int64 b.1, .moduleLoaderEnv ⟨b.2, env⟩)

/-- The key 0 counts as none and stays in the pool. -/
theorem runs_removeLoaders {env : Word} {bound : List (Int64 × L)} {u : Unit}
    (holds : PoolHolds clock p (loaderEntries env bound ++ held))
    (ran : Runs clock p (removeLoaders (bound.map Prod.fst) : KeyProg L S Unit) u p') :
    PoolHolds clock p' (loaderEntries env (bound.filter fun b => b.1 = 0) ++ held) := by
  induction bound generalizing p held with
  | nil =>
    obtain ⟨_, rfl⟩ := runs_pure.mp ran
    exact holds
  | cons b rest ih =>
    by_cases zero : b.1 = 0
    · simp only [List.map_cons, removeLoaders, zero, ne_eq, not_true_eq_false, if_false] at ran
      -- kept: it joins the entries that are not this environment's to remove
      have kept := ih (holds.perm List.perm_middle.symm) ran
      have split : (b :: rest).filter (fun b => b.1 = 0) = b :: rest.filter fun b => b.1 = 0 := by
        simp [zero]
      rw [split]
      exact kept.perm List.perm_middle
    · simp only [List.map_cons, removeLoaders, zero, ne_eq, not_false_eq_true, if_true] at ran
      obtain ⟨_, q, removed, others⟩ := runs_bind.mp ran
      have split : (b :: rest).filter (fun b => b.1 = 0) = rest.filter fun b => b.1 = 0 := by
        simp [zero]
      rw [split]
      exact ih (runs_RemoveKey holds removed) others

variable {m m' : LoaderKeyMap} {env : Word}

theorem runs_addGoModuleLoader {ctx jsEnv : JSEnv} {loader : L}
    (holds : PoolHolds clock p held)
    (ran : Runs clock p ((addGoModuleLoader ctx (some loader) : GoProg L S JSEnv).run m)
      (jsEnv, m') p') :
    ∃ key, jsEnv = { ctx with loaderKey := ctx.loaderKey ++ [key] } ∧
      m' = (if ctx.loaderKey.length = 0 then Function.update m ctx.env (some key) else m) ∧
      PoolHolds clock p' ((.int64 key, .moduleLoaderEnv ⟨loader, ctx.env⟩) :: held) := by
  obtain ⟨key, n, q, lifted, rest⟩ := runs_bind_state.mp ran
  obtain ⟨saved, rfl⟩ := runs_lift.mp lifted
  have holds := runs_saveModuleLoader holds saved
  refine ⟨key, ?_⟩
  dsimp only at rest
  split at rest
  · next first =>
    obtain ⟨_, n', r, modified, ended⟩ := runs_bind_state.mp rest
    obtain ⟨rfl, rfl⟩ := runs_modify.mp modified
    obtain ⟨same, rfl⟩ := runs_pure.mp ended
    cases same
    exact ⟨rfl, (if_pos first).symm, holds⟩
  · next later =>
    obtain ⟨same, rfl⟩ := runs_pure.mp rest
    cases same
    exact ⟨rfl, (if_neg later).symm, holds⟩

theorem runs_newEnv {jsEnv : JSEnv} {plugin : L} {loader : Option L}
    (holds : PoolHolds clock p held)
    (ran : Runs clock p ((newEnv env plugin loader : GoProg L S JSEnv).run m) (jsEnv, m') p') :
    jsEnv.env = env ∧ jsEnv.loaderKey.length = (plugin :: loader.toList).length ∧
      m' = Function.update m env jsEnv.loaderKey.head? ∧
      PoolHolds clock p'
        (loaderEntries env (jsEnv.loaderKey.zip (plugin :: loader.toList)) ++ held) := by
  obtain ⟨first, n, q, added, rest⟩ := runs_bind_state.mp ran
  obtain ⟨key, rfl, rfl, holds⟩ := runs_addGoModuleLoader holds added
  cases loader with
  | none =>
    obtain ⟨same, rfl⟩ := runs_pure.mp rest
    cases same
    exact ⟨rfl, rfl, rfl, holds⟩
  | some loader =>
    obtain ⟨key', rfl, rfl, holds⟩ := runs_addGoModuleLoader holds rest
    exact ⟨rfl, rfl, rfl, holds.perm (.swap ..)⟩

end DukBridge
