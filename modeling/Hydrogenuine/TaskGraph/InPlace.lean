import Hydrogenuine.TaskGraph.Evaluation

/-!
# Lists repeated in place

`*` repeats a list in place when its first operand is one.  Apart from that, evaluation
only makes new objects: what the context showed before, it shows after, and the value of
an expression can be read (`evaluate_extends`).
-/

namespace Hydrogenuine.TaskGraph

open Support

section

variable (env : Interpreter) (mode : EvalMode) (ctx : ExprContext)

/-- In the course of the evaluation, `*` repeats a list that was there at its start. -/
def RepeatsInPlace (e : PyVal) (s : EvalState) : Prop :=
  ∃ key args t a b rest u,
    Reaches env mode ctx e s (.dict [(key, args)]) t ∧
      Operator.parse key = some (.arithmetic .mul) ∧
      evaluateAll env mode ctx (.arithmetic .mul)
        (Operator.operands (.arithmetic .mul) args) t = .ok (.ref a :: b :: rest) u ∧
      (Datum.ref a :: b :: rest).any Datum.isNone = false ∧ a < s.heap.length ∧
      (∃ items, u.heap.list? (.ref a) = some items) ∧ ∃ n, b.integer? = some n

/-- The values of a context can be read. -/
structure ExprContext.ReadableIn (h : Heap) : Prop where
  state : ∀ entry ∈ ctx.state, h.Readable entry.2
  node : ∀ entry ∈ ctx.node, h.Readable entry.2
  inputs : ∀ entry ∈ ctx.inputs, h.Readable entry.2
  loop : ∀ entry ∈ ctx.loop, h.Readable entry.2

/-- The first objects stay as they are, and what can be read stays readable. -/
structure KeepsFirst (n : ℕ) (s t : EvalState) : Prop where
  same : ∀ a < n, t.heap[a]? = s.heap[a]?
  length : s.heap.length ≤ t.heap.length
  readable : ∀ d, s.heap.Readable d → t.heap.Readable d

variable {env mode ctx}

theorem ExprContext.ReadableIn.mono {h h' : Heap} (hctx : ctx.ReadableIn h)
    (hreadable : ∀ d, h.Readable d → h'.Readable d) : ctx.ReadableIn h' where
  state := fun entry hentry => hreadable _ (hctx.state entry hentry)
  node := fun entry hentry => hreadable _ (hctx.node entry hentry)
  inputs := fun entry hentry => hreadable _ (hctx.inputs entry hentry)
  loop := fun entry hentry => hreadable _ (hctx.loop entry hentry)

instance (n : ℕ) : Std.Refl (KeepsFirst n) where
  refl := fun _ => ⟨fun _ _ => rfl, Nat.le_refl _, fun _ => id⟩

instance (n : ℕ) : IsTrans EvalState (KeepsFirst n) where
  trans := fun _ _ _ hst htu =>
    ⟨fun a ha => (htu.same a ha).trans (hst.same a ha), hst.length.trans htu.length,
      fun d hd => htu.readable d (hst.readable d hd)⟩

variable {s t : EvalState} {n : ℕ}

theorem KeepsFirst.of_heap_eq (heq : t.heap = s.heap) :
    KeepsFirst n s t :=
  ⟨fun _ _ => by rw [heq], by rw [heq], fun _ hd => by rw [heq]; exact hd⟩

theorem KeepsFirst.of_extend (hinitial : s.heap <+: t.heap)
    (hn : n ≤ s.heap.length) : KeepsFirst n s t where
  same := by
    intro a ha
    obtain ⟨more, hmore⟩ := hinitial
    rw [← hmore, List.getElem?_append_left (ha.trans_le hn)]
  length := hinitial.length_le
  readable := fun _ hd => Heap.Readable.extend hd hinitial

theorem KeepsFirst.extend (h : KeepsFirst s.heap.length s t) :
    s.heap <+: t.heap := by
  refine List.prefix_iff_getElem?.mpr fun a ha => ?_
  rw [h.same a ha]
  exact List.getElem?_eq_getElem ha

/-! ## Variables -/

section

variable {h : Heap}

variable {d : Datum}

theorem readable_getByDotPath {keys : List String}
    {items : List (String × Datum)} (hitems : ∀ entry ∈ items, h.Readable entry.2)
    (hd : getByDotPath h keys items = some d) : h.Readable d := by
  induction keys generalizing items with
  | nil => cases hd
  | cons key rest ih =>
      cases rest with
      | nil =>
          rw [getByDotPath] at hd
          split_ifs at hd
          exact Heap.readable_of_lookupEntry hitems hd
      | cons next rest =>
          rw [getByDotPath] at hd
          · split_ifs at hd
            obtain ⟨d', hd', hrest⟩ := Option.bind_eq_some_iff.mp hd
            obtain ⟨inner, hinner, hlast⟩ := Option.bind_eq_some_iff.mp hrest
            have hreadable := Heap.readable_of_lookupEntry hitems hd'
            exact ih (hreadable.of_dict? hinner) hlast
          · exact nofun

theorem readable_resolvePath {path : String} (hctx : ctx.ReadableIn h)
    (hd : resolvePath h ctx path = some d) : h.Readable d := by
  unfold resolvePath at hd
  split_ifs at hd
  · exact readable_getByDotPath hctx.state hd
  · obtain ⟨⟨nid, outKey⟩, -, hnode⟩ := Option.bind_eq_some_iff.mp hd
    obtain ⟨out, hout, hitem⟩ := Option.bind_eq_some_iff.mp hnode
    obtain ⟨items, hitems, hlast⟩ := Option.bind_eq_some_iff.mp hitem
    have hreadable := Heap.readable_of_lookupEntry hctx.node hout
    exact Heap.readable_of_lookupEntry (hreadable.of_dict? hitems) hlast
  · dsimp only at hd
    split_ifs at hd
    exact Heap.readable_of_lookupEntry hctx.inputs hd
  · dsimp only at hd
    split_ifs at hd
    exact Heap.readable_of_lookupEntry hctx.loop hd

theorem readable_resolveVar {path : PyVal} (hctx : ctx.ReadableIn h)
    (hd : resolveVar h ctx path = .ok (some d)) : h.Readable d := by
  unfold resolveVar at hd
  split at hd
  · exact readable_resolvePath hctx (Except.ok.inj hd)
  · split_ifs at hd
    cases hd

end

theorem variableRef_ends {s : EvalState} (spec : PyVal) (hn : n ≤ s.heap.length)
    (hctx : ctx.ReadableIn s.heap) :
    Ends (variableRef env mode ctx spec) s
      (fun d t => KeepsFirst n s t ∧ t.heap.Readable d) fun _ t => KeepsFirst n s t := by
  have hrefl (t : EvalState) (heq : t.heap = s.heap) : KeepsFirst n s t := .of_heap_eq heq
  unfold variableRef
  refine ends_readHeap_bind (ends_bind (ends_raising (fun found hfound => ?_)
    fun err _ => hrefl s rfl))
  cases found with
  | some d => exact ends_pure ⟨hrefl s rfl, readable_resolveVar hctx hfound⟩
  | none =>
      have hnone (t : EvalState) (heq : t.heap = s.heap) :
          KeepsFirst n s t ∧ t.heap.Readable Datum.none :=
        ⟨hrefl t heq, Heap.readable_scalar _ fun _ => Datum.noConfusion⟩
      dsimp only
      by_cases hcollecting : mode.collecting = true
      · have hlenient : mode.effectiveStrict = false := by
          rw [EvalMode.effectiveStrict, hcollecting, Bool.not_true, Bool.and_false]
        have hadd : Ends (addMissing (variablePath env spec)) s
            (fun _ t => t.heap = s.heap) fun _ t => t.heap = s.heap := by
          unfold addMissing
          split
          · exact ends_throw rfl
          · exact ends_throw rfl
          · exact ends_modify rfl
        rw [if_pos hcollecting, hlenient]
        exact ends_bind (ends_mono hadd (fun _ t heq => ends_pure (hnone t heq))
          fun _ t heq => hrefl t heq)
      · rw [if_neg hcollecting]
        split_ifs
        · split
          · exact ends_throw (hrefl s rfl)
          · refine ends_readHeap_bind (ends_bind (ends_modify (ends_pure ⟨?_, ?_⟩)))
            · exact .of_extend (Heap.prefix_alloc _ s.heap) hn
            · exact ⟨variableDefault spec, Heap.shows_alloc _ s.heap⟩
        · exact ends_pure (hnone s rfl)

/-! ## Conclusions -/

def Scalar (d : Datum) : Prop := ∀ a, d ≠ .ref a

/-- The computation changes nothing, and its value is no object or among the values. -/
def Selects (vals : List Datum) (m : EvalM Datum) : Prop :=
  ∀ s, Ends m s (fun d t => s = t ∧ (Scalar d ∨ d ∈ vals)) fun _ t => s = t

section

variable {vals : List Datum}

variable {d : Datum}

theorem selects_pure (hd : Scalar d ∨ d ∈ vals) : Selects vals (pure d) :=
  fun _ => ends_pure ⟨rfl, hd⟩

theorem selects_scalar (hd : Scalar d) : Selects vals (pure d) :=
  selects_pure (Or.inl hd)

theorem selects_throw (err : ExprError) : Selects vals (throw err) :=
  fun _ => ends_throw rfl

theorem selects_bind {α : Type} {m : EvalM α} {f : α → EvalM Datum} (hm : Along Eq m)
    (hf : ∀ a, Selects vals (f a)) : Selects vals (m >>= f) := by
  intro s
  refine ends_bind (ends_mono (hm s) (fun a t heq => ?_) fun _ _ heq => heq)
  rw [heq]
  exact hf a t

theorem selects_raising {r : Except ExprError Datum} (hr : ∀ d, r = .ok d → Scalar d) :
    Selects vals (raising r) :=
  fun _ => ends_raising (fun d hd => ⟨rfl, Or.inl (hr d hd)⟩) fun _ _ => rfl

theorem scalar_onNumbers {ints : ℤ → ℤ → Except ExprError ℤ}
    {floats : Number → Number → Except ExprError PyFloat} {x y : Number}
    (h : onNumbers ints floats x y = .ok d) : Scalar d := by
  unfold onNumbers at h
  split at h
  · next a b =>
      cases hints : ints a b with
      | error err =>
          rw [hints] at h
          cases h
      | ok n =>
          rw [hints] at h
          obtain rfl := Except.ok.inj h
          exact fun _ => Datum.noConfusion
  · cases hfloats : floats x y with
    | error err =>
        rw [hfloats] at h
        cases h
    | ok f =>
        rw [hfloats] at h
        obtain rfl := Except.ok.inj h
        exact fun _ => Datum.noConfusion

theorem scalar_sumNumbers {numbers : List Number}
    (h : sumNumbers env numbers = .ok d) : Scalar d := by
  unfold sumNumbers at h
  split at h
  · obtain rfl := Except.ok.inj h
    exact fun _ => Datum.noConfusion
  · cases hsum : env.sum numbers with
    | error err =>
        rw [hsum] at h
        cases h
    | ok f =>
        rw [hsum] at h
        obtain rfl := Except.ok.inj h
        exact fun _ => Datum.noConfusion

theorem selects_compare (key : String) (op : Comparison) (a b : Datum) :
    Selects vals (compare mode key op a b) := by
  unfold compare
  split_ifs
  · exact selects_throw _
  · exact selects_scalar fun _ => Datum.noConfusion
  · refine selects_bind (along_readValue a) fun x => selects_bind (along_readValue b) fun y => ?_
    split
    · exact selects_scalar fun _ => Datum.noConfusion
    · exact selects_throw _

theorem selects_add (vals : List Datum) : Selects vals (add env vals) := by
  unfold add
  split
  · exact selects_pure (Or.inr List.mem_cons_self)
  · next numbers _ =>
      intro s
      refine ends_bind (ends_raising (fun total htotal => ?_) fun _ _ => rfl)
      have hscalar : Scalar total := scalar_sumNumbers htotal
      refine (?_ : Selects vals _) s
      split_ifs
      · exact selects_scalar hscalar
      · split
        · exact selects_bind (along_strOf _) fun x => selects_bind (along_strOf _) fun y =>
            selects_scalar fun _ => Datum.noConfusion
        · exact selects_scalar hscalar

theorem selects_sub (a b : Datum) : Selects vals (sub env a b) := by
  unfold sub
  split
  · exact selects_raising fun d hd => scalar_onNumbers hd
  · exact selects_throw _

theorem selects_mod (a b : Datum) : Selects vals (mod env a b) := by
  unfold mod
  split
  · exact selects_bind (along_readValue _) fun _ => selects_bind (along_raising _) fun _ =>
      selects_scalar fun _ => Datum.noConfusion
  · split
    · exact selects_raising fun d hd => scalar_onNumbers hd
    · exact selects_throw _

theorem selects_conclude {key : String} {op : Operator} (hop : op ≠ .arithmetic .mul)
    (vals : List Datum) : Selects vals (conclude env mode key op vals) := by
  unfold conclude
  split
  · exact selects_bind along_readHeap fun _ => selects_scalar fun _ => Datum.noConfusion
  · split
    · next d hd =>
        refine selects_bind along_readHeap fun h => ?_
        split_ifs
        · exact selects_scalar fun _ => Datum.noConfusion
        · exact selects_pure (Or.inr (List.mem_of_getLast? hd))
    · exact selects_scalar fun _ => Datum.noConfusion
  · cases hlast : vals.getLast? with
    | none => exact selects_scalar fun _ => Datum.noConfusion
    | some d => exact selects_pure (Or.inr (List.mem_of_getLast? hlast))
  · exact selects_compare _ _ _ _
  · next op' _ =>
      unfold arithmetic
      split_ifs
      · exact selects_throw _
      · exact selects_scalar fun _ => Datum.noConfusion
      · unfold applyArithmetic
        split
        · exact selects_add _
        · exact selects_sub _ _
        · exact selects_mod _ _
        · exact absurd rfl hop
        · exact selects_throw _
  · exact selects_throw _

end

/-! ### Products -/

theorem mem_of_mem_repeatList {items : List Datum} {n : ℤ} {d : Datum}
    (hd : d ∈ repeatList items n) : d ∈ items := by
  obtain ⟨copy, hcopy, hmem⟩ := List.mem_flatten.mp hd
  rwa [List.eq_of_mem_replicate hcopy] at hmem

section

variable {n : ℕ}

theorem mulAssign_ends {s : EvalState} {a b : Datum} (hn : n ≤ s.heap.length)
    (ha : s.heap.Readable a) (hb : s.heap.Readable b)
    (hlater : ∀ address items k, a = .ref address →
      s.heap.list? (.ref address) = some items → b.integer? = some k → n ≤ address) :
    Ends (mulAssign env a b) s
      (fun d t => KeepsFirst n s t ∧ t.heap.Readable d ∧ ∀ address, d = .ref address →
        n ≤ address)
      fun _ t => KeepsFirst n s t := by
  have hthrow : Ends (throw .typeError : EvalM Datum) s
      (fun d t => KeepsFirst n s t ∧ t.heap.Readable d ∧ ∀ address, d = .ref address →
        n ≤ address) fun _ t => KeepsFirst n s t := ends_throw (Std.Refl.refl s)
  have hscalar {d : Datum} (hd : Scalar d) : KeepsFirst n s s ∧ s.heap.Readable d ∧
      ∀ address, d = .ref address → n ≤ address :=
    ⟨Std.Refl.refl s, Heap.readable_scalar _ hd, fun address heq => absurd heq (hd address)⟩
  unfold mulAssign
  refine ends_readHeap_bind ?_
  split
  · split
    · exact ends_pure (hscalar fun _ => Datum.noConfusion)
    · exact hthrow
  · next address =>
      split
      · next items k hitems hk =>
          have hobject := Heap.list?_ref_eq_some_iff.mp hitems
          have haddress : n ≤ address := hlater address items k rfl hitems hk
          have hset : ∀ d, s.heap.Readable d →
              Heap.Readable (s.heap.set address (.list (repeatList items k))) d :=
            fun d hd => Heap.Readable.set_list hd hobject fun _ => mem_of_mem_repeatList
          refine ends_bind (ends_modify (ends_pure ⟨⟨fun c hc => ?_, ?_, hset⟩, hset _ ha, ?_⟩))
          · exact List.getElem?_set_ne (Nat.ne_of_gt (hc.trans_le haddress))
          · rw [List.length_set]
          · intro address' heq
            obtain rfl := Datum.ref.inj heq
            exact haddress
      · exact hthrow
  · split
    · exact ends_pure (hscalar fun _ => Datum.noConfusion)
    · exact hthrow
  · next address _ _ =>
      split
      · next items k hitems hk =>
          have hchildren := (Heap.readable_ref_iff (Heap.list?_ref_eq_some_iff.mp hitems)).mp hb
          have hinitial : s.heap <+: s.heap ++ [.list (repeatList items k)] :=
            List.prefix_append _ _
          refine ends_bind (ends_modify (ends_pure ⟨.of_extend hinitial hn, ?_, ?_⟩))
          · refine (Heap.readable_ref_iff List.getElem?_concat_length).mpr fun d hd => ?_
            exact Heap.Readable.extend (hchildren d (mem_of_mem_repeatList hd)) hinitial
          · intro address' heq
            obtain rfl := Datum.ref.inj heq
            exact hn
      · exact hthrow
  · split
    · exact ends_raising (fun d hd => hscalar (scalar_onNumbers hd)) fun _ _ => Std.Refl.refl s
    · exact hthrow

theorem product_ends {s : EvalState} {a : Datum} {rest : List Datum} (hn : n ≤ s.heap.length)
    (ha : s.heap.Readable a) (hrest : ∀ d ∈ rest, s.heap.Readable d)
    (hlater : ∀ address items b others k, a = .ref address → rest = b :: others →
      s.heap.list? (.ref address) = some items → b.integer? = some k → n ≤ address) :
    Ends (rest.foldlM (mulAssign env) a) s (fun d t => KeepsFirst n s t ∧ t.heap.Readable d)
      fun _ t => KeepsFirst n s t := by
  induction rest generalizing s a with
  | nil => exact ends_pure ⟨Std.Refl.refl s, ha⟩
  | cons b rest ih =>
      obtain ⟨hb, hrest⟩ := List.forall_mem_cons.mp hrest
      rw [List.foldlM_cons]
      have hfirst := @mulAssign_ends env n s a b hn ha hb fun address items k heq hitems hk =>
        hlater address items b rest k heq rfl hitems hk
      refine ends_bind (ends_mono hfirst ?_ fun _ _ h => h)
      rintro d t ⟨hst, hd, hnew⟩
      have hothers := @ih t d (hn.trans hst.length) hd (fun d hd => hst.readable d (hrest d hd))
        fun address _ _ _ _ heq _ _ _ => hnew address heq
      refine ends_mono hothers ?_ fun _ u htu => IsTrans.trans _ _ _ hst htu
      rintro d u ⟨htu, hd⟩
      exact ⟨IsTrans.trans _ _ _ hst htu, hd⟩

theorem conclude_ends {s : EvalState} {key : String} {op : Operator} {vals : List Datum}
    (hn : n ≤ s.heap.length) (hvals : ∀ d ∈ vals, s.heap.Readable d)
    (hlater : ∀ a b rest items k, op = .arithmetic .mul → vals = .ref a :: b :: rest →
      vals.any Datum.isNone = false → s.heap.list? (.ref a) = some items →
        b.integer? = some k → n ≤ a) :
    Ends (conclude env mode key op vals) s
      (fun d t => KeepsFirst n s t ∧ t.heap.Readable d) fun _ t => KeepsFirst n s t := by
  have hrefl : KeepsFirst n s s := Std.Refl.refl s
  by_cases hop : op = .arithmetic .mul
  · subst hop
    rw [conclude, arithmetic]
    · split_ifs with hnone hstrict
      · exact ends_throw hrefl
      · exact ends_pure ⟨hrefl, Heap.readable_scalar _ fun _ => Datum.noConfusion⟩
      · rcases vals with _ | ⟨a, rest⟩
        · exact ends_throw hrefl
        · obtain ⟨ha, hrest⟩ := List.forall_mem_cons.mp hvals
          refine product_ends hn ha hrest fun address items b others k heq hcons => ?_
          subst heq hcons
          exact hlater address b others items k rfl rfl (Bool.not_eq_true _ ▸ hnone)
  · refine ends_mono (selects_conclude hop vals s) ?_ fun _ t heq => heq ▸ hrefl
    rintro d t ⟨rfl, hd⟩
    refine ⟨hrefl, ?_⟩
    rcases hd with hscalar | hmem
    · exact Heap.readable_scalar _ hscalar
    · exact hvals d hmem

end

/-! ## Evaluation -/

theorem not_repeatsInPlace_of_literal {e : PyVal} {s : EvalState}
    (he : ∀ key args, e ≠ .dict [(key, args)]) : ¬ RepeatsInPlace env mode ctx e s := by
  rintro ⟨key, args, t, a, b, rest, u, hreach, -⟩
  cases hreach with
  | here => exact he key args rfl
  | @operand key' args' op earlier later operand _ _ _ _ => exact he key' args' rfl

theorem evaluate_extends {e : PyVal} {s : EvalState} (hctx : ctx.ReadableIn s.heap)
    (hplace : ¬ RepeatsInPlace env mode ctx e s) :
    Ends (evaluate env mode ctx e) s (fun d t => s.heap <+: t.heap ∧ t.heap.Readable d)
      fun _ t => s.heap <+: t.heap := by
  refine ends_mono (@evaluate_ends env mode ctx (KeepsFirst s.heap.length) _ _
    (fun t d => t.heap.Readable d) (fun _ _ d htu hd => htu.readable d hd)
    (fun _ d hd => Heap.readable_scalar _ hd) e s (fun spec t _ hst => ?_) ?_)
    (fun _ _ h => ⟨h.1.extend, h.2⟩) fun _ _ h => h.extend
  · exact variableRef_ends spec hst.length (hctx.mono hst.readable)
  · intro key args op t vals u hreach hop hvals hsu hreadable
    refine conclude_ends hsu.length hreadable fun a b rest items k hmul hcons hnone hlist hk => ?_
    subst hmul hcons
    by_contra ha
    exact hplace ⟨key, args, t, a, b, rest, u, hreach, hop, hvals, hnone,
      Nat.lt_of_not_le ha, ⟨items, hlist⟩, k, hk⟩

end

end Hydrogenuine.TaskGraph
