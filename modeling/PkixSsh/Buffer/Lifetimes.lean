import PkixSsh.Buffer.Ownership

/-!
# Views live as long as they are needed

Over any run of calls that end well every buffer in use stays sane, views keep their bytes, and what
the program has freed is released, once.
-/

namespace PkixSsh.Buffer

open Blocks Machine Forest

section

variable {h h' : Heap} {id p : Nat} {b : Sshbuf} {w : World} {x : Option Sshbuf}

lemma set_comm {y : Option Sshbuf} (hne : p ≠ id) :
    (h.set id x).set p y = (h.set p y).set id x := by
  simp only [Heap.set,Function.update_comm hne]

lemma set_set {y : Option Sshbuf} : (h.set id x).set id y = h.set id y := by
  simp only [Heap.set,Function.update_idem]

lemma set_eq_self (hx : h.bufs id = x) : h.set id x = h := by
  simp only [Heap.set,← hx,Function.update_eq_self]

/-- The parents of the buffers up to `p` are older than these. -/
def Older (h : Heap) (p : Nat) : Prop :=
  ∀ i c q, i ≤ p → h.bufs i = some c → c.parent = some q → q < i

lemma release_set (x : Option Sshbuf) (hne : p ≠ id) :
    release (h.set id x) p b = (release h p b).map (·.set id x) := by
  have hw : (h.set id x).w = h.w := rfl
  rw [release,release,set_comm hne,hw]
  cases freeData h.w b with
  | error f => rfl
  | ok w => rfl

lemma sshbufFreeLoop_set (n : Nat) (x : Option Sshbuf) (hold : Older h p) (hlt : p < id) :
    sshbufFreeLoop n (h.set id x) p = (sshbufFreeLoop n h p).map (·.set id x) := by
  induction n generalizing h p with
  | zero => rfl
  | succ n ih =>
    rw [sshbufFreeLoop,sshbufFreeLoop,set_bufs_of_ne hlt.ne]
    cases hb : h.bufs p with
    | none => rfl
    | some b =>
      dsimp only
      split
      · rfl
      rw [set_comm hlt.ne]
      split
      · rfl
      cases hq : b.parent with
      | none => exact release_set x hlt.ne
      | some q =>
        have hqp := hold p b q le_rfl hb hq
        have hold' : Older (h.set p (some { b with refcount := b.refcount - 1 })) q := by
          intro i c r hi hc hr
          rcases update_cases hc with ⟨rfl,-⟩ | ⟨-,hc'⟩
          · omega
          · exact hold i c r (by omega) hc' hr
        dsimp only
        rw [hq] at hold'
        rw [ih hold' (by omega)]
        cases sshbufFreeLoop n _ q with
        | error f => rfl
        | ok h' => exact release_set x hlt.ne

lemma sshbufFreeLoop_younger {n : Nat} (hold : Older h p) (hlt : p < id)
    (hf : sshbufFreeLoop n h p = .ok h') : h'.bufs id = h.bufs id := by
  have hset := sshbufFreeLoop_set n (h.bufs id) hold hlt
  rw [set_eq_self rfl,hf] at hset
  rw [Except.ok.inj hset]
  exact set_bufs_self

lemma freeData_ok (hv : Valid w.mem b) :
    ∃ w', freeData w b = .ok w' ∧ Released w.mem w'.mem b := by
  rw [freeData]
  cases hr : b.readonly with
  | true => exact ⟨w,rfl,rfl,fun _ _ => rfl,fun hf => by rw [hr] at hf; cases hf⟩
  | false =>
    obtain ⟨w1,hw,-,hcarries,hblock⟩ := write_moves hv hr (p := 0)
      (v := List.replicate b.alloc 0) (by rw [List.length_replicate]; omega)
    obtain ⟨cells,hcells,-⟩ := hv.block
    rw [Nat.add_zero] at hw
    have hnext : w1.mem.next = w.mem.next := World.write_next hw
    refine ⟨{ w1 with mem := w1.mem.free _ },?_,hnext,fun k hk => ?_,
      fun _ => Memory.block_free_self _ _⟩
    · rw [hv.owns hr,deref]
      simp only [Bool.not_false,if_true,Sshbuf.ok_bind,freezero,hw,World.free,hblock cells hcells]
    · have hk' : k ≠ b.cd.block := hk.resolve_left fun hf => by
        rw [hr] at hf
        cases hf
      rw [Memory.block_free_of_ne _ hk']
      by_cases hlt : k < w.mem.next
      · exact hcarries.frame k hk' hlt
      · rw [hcarries.fresh k (by omega) hk',w.mem.fresh k (by omega)]

lemma release_self {c : Sshbuf} (hf : freeData h.w c = .ok w) :
    release (h.set id x) id c = .ok { h.set id none with w := w } := by
  have hw : (h.set id x).w = h.w := rfl
  rw [release,hw,hf,set_set]
  rfl

lemma Inv.older {e : Option Nat} (hi : Inv h e) (p : Nat) : Older h p :=
  fun i c q _ hc hq => (hi.child i c q hc hq).1

lemma sshbufFreeLoop_ok {n : Nat} (hn : id < n) (hi : Inv h (some id)) (hb : h.bufs id = some b) :
    ∃ h', sshbufFreeLoop n h id = .ok h' ∧ Inv h' none ∧ Stable h h' := by
  induction n generalizing h id b with
  | zero => omega
  | succ n ih =>
    have hv := hi.valid id b hb
    obtain ⟨-,hpos,hmax,-⟩ := checkSanity_iff.mp hv.sane
    rw [sshbufFreeLoop,hb]
    simp only [hv.if_sane]
    split
    · next hmore =>
      -- references are left
      have hcount := hi.count id b hb
      rw [Heap.refs,owed,if_pos rfl] at hcount
      refine ⟨_,rfl,hi.recount hb _ (by omega) (by omega) ?_ fun i hne => ?_,
        stable_set hb (fun _ _ _ _ => rfl) fun c hc hr => by cases hc; exact ⟨hr,rfl,rfl,rfl⟩⟩
      · rw [Heap.refs,owed,if_neg (by simp)]
        omega
      · rw [owed,owed,if_neg (by simp),if_neg fun heq => hne (Option.some.inj heq).symm]
    · next hlast =>
      have hone : b.refcount = 1 := by omega
      cases hp : b.parent with
      | none =>
        obtain ⟨w',hfree,hrel⟩ := freeData_ok hv
        have hinv := hi.remove hb hone hrel
        rw [hp] at hinv
        refine ⟨_,release_self ?_,hinv,stable_remove hi hb hone hrel⟩
        exact hfree
      | some p =>
        -- a child has no data of its own, so only its parent is left to be freed
        have hr : b.readonly = true := by
          cases hr : b.readonly with
          | true => rfl
          | false =>
            rw [(hi.owner id b hb hr).2] at hp
            cases hp
        have hrel : Released h.w.mem _ b :=
          ⟨rfl,fun _ _ => rfl,fun hf => by rw [hr] at hf; cases hf⟩
        have hout : Inv _ _ := hi.remove hb hone hrel
        have hinv : Inv (h.set id none) _ := hp ▸ hout
        have hstable : Stable h _ := stable_remove hi hb hone hrel
        obtain ⟨hlt,c,hc,-⟩ := hi.child id b p hb hp
        obtain ⟨h',hloop,hinv',hstable'⟩ := ih (by omega) hinv ((set_bufs_of_ne hlt.ne).trans hc)
        have hgone : h'.bufs id = none :=
          (sshbufFreeLoop_younger (hinv.older p) hlt hloop).trans set_bufs_self
        refine ⟨h',?_,hinv',hstable.trans hi.fresh hstable'⟩
        dsimp only
        rw [← set_set,sshbufFreeLoop_set n _ (hinv.older p) hlt,hloop]
        refine (release_self ?_).trans (congrArg _ (set_eq_self hgone))
        simp only [freeData,hr,Bool.not_true,Bool.false_eq_true,if_false]

lemma queueCall_moves (hv : Valid w.mem b) (a : Allocator) (op : QueueOp) :
    ∃ o b' w', queueCall a (b,w) op = .ok (o,b',w') ∧ Moves b w b' w' := by
  cases op with
  | put v =>
    obtain ⟨t,ht,happ⟩ := sshbufPut_ok hv a v
    exact ⟨_,_,_,by rw [queueCall,ht]; rfl,happ.moves⟩
  | fill v =>
    obtain ⟨t,ht,happ⟩ := reserveAndFill_ok hv a v
    exact ⟨_,_,_,by rw [queueCall,ht]; rfl,happ.moves⟩
  | allocate len =>
    obtain ⟨t,ht,halloc⟩ := sshbufAllocate_ok hv a len
    exact ⟨_,_,_,by rw [queueCall,ht]; rfl,halloc.moves⟩
  | get len =>
    obtain ⟨b',hg,hm,-⟩ := sshbufGet_ok hv len
    exact ⟨_,_,_,by rw [queueCall,hg]; rfl,hm⟩
  | consume len =>
    obtain ⟨b',hc,hm,-⟩ := sshbufConsume_ok hv len
    exact ⟨_,_,_,by rw [queueCall,hc]; rfl,hm⟩
  | consumeEnd len =>
    obtain ⟨b',hc,hm,-⟩ := sshbufConsumeEnd_ok hv len
    exact ⟨_,_,_,by rw [queueCall,hc]; rfl,hm⟩

lemma bufCall_moves (hv : Valid w.mem b) (a : Allocator) (op : BufOp)
    (hsafe : op = .reset → resetSafe a b w) :
    ∃ o b' w', bufCall a b w op = .ok (o,b',w') ∧ Moves b w b' w' := by
  cases op with
  | queue op => exact queueCall_moves hv a op
  | reserve len =>
    obtain ⟨s,hs,hres⟩ := sshbufReserve_ok hv a len
    exact ⟨_,_,_,by rw [bufCall,hs]; rfl,hres.moves⟩
  | setMaxSize n =>
    obtain ⟨s,hs,hm,-⟩ := sshbufSetMaxSize_ok a hv n
    exact ⟨_,_,_,by rw [bufCall,hs]; rfl,hm⟩
  | reset =>
    obtain ⟨b',w',hs,hm,-⟩ := sshbufReset_ok a hv (hsafe rfl)
    exact ⟨_,_,_,by rw [bufCall,hs]; rfl,hm⟩
  | poke offset v =>
    obtain ⟨s,hs,hm⟩ := sshbufPoke_ok hv _ v
    exact ⟨_,_,_,by rw [bufCall,hs]; rfl,hm⟩

/-- What a call that makes a child leaves behind. -/
structure Spawns (id : Nat) (b : Sshbuf) (w : World) (s : Ret Sshbuf) : Prop where
  mem : s.w.mem = w.mem
  failed : ∀ e, s.r = .error e → s.buf = b
  child : ∀ c, s.r = .ok c → Valid w.mem c ∧ c.readonly = true ∧ c.refcount = 1 ∧
    c.parent = some id ∧ c.cd.block = b.cd.block
  parent : ∀ c, s.r = .ok c →
    ∃ b1, Moves b w b1 w ∧ s.buf = { b1 with refcount := b1.refcount + 1 }

lemma sshbufFroms_spawns (hv : Valid w.mem b) (a : Allocator) (id : Nat) :
    ∃ s, sshbufFroms a id b w = .ok s ∧ Spawns id b w s := by
  obtain ⟨r,b',w',hs,hmem,hfail,hparent,hat⟩ := sshbufFroms_attempts hv a id
  refine ⟨_,hs,hmem,hfail,?_,fun c hc => (hparent c hc).2⟩
  rintro c ⟨⟩
  obtain ⟨v,hc⟩ := hat.value
  have hvalid : Valid w.mem c := by
    rw [← hmem]
    exact hc.valid
  exact ⟨hvalid,hc.readonly,hc.refcount,hc.parent,(hparent c rfl).1⟩

lemma sshbufFromb_spawns (hv : Valid w.mem b) (a : Allocator) (id : Nat) :
    ∃ s, sshbufFromb a id b w = .ok s ∧ Spawns id b w s := by
  obtain ⟨cells,hcells,hle⟩ := hv.block
  have hbounds := hv.bounds
  obtain ⟨o,w',hfrom,hmem,hdenied,hgot⟩ := sshbufFrom_ok (p := sshbufPtr b) a (sshbufLen b) hcells
    (by dsimp only [sshbufPtr,sshbufLen]; omega) (by dsimp only [sshbufLen]; omega)
  rw [sshbufFromb,hfrom]
  simp only [hv.if_sane]
  cases hg : a.grants _ with
  | false =>
    rw [hdenied hg]
    exact ⟨_,rfl,hmem,fun _ _ => rfl,by rintro _ ⟨⟩,by rintro _ ⟨⟩⟩
  | true =>
    obtain ⟨c,rfl,hview⟩ := hgot hg
    simp only [sshbufSetParent,hview.valid.if_sane,hv.if_sane]
    refine ⟨_,rfl,hmem,by rintro _ ⟨⟩,?_,fun c hc => ⟨b,hv.moves,rfl⟩⟩
    rintro c' ⟨⟩
    refine ⟨⟨hview.valid.sane,hview.valid.view,hview.valid.start,hview.valid.block⟩,hview.readonly,
      hview.refcount,rfl,?_⟩
    rw [hview.cd]
    rfl

lemma Inv.of_mem_eq {e : Option Nat} (hi : Inv h e) (hm : w.mem = h.w.mem) :
    Inv { h with w := w } e :=
  ⟨hi.fresh,hm ▸ hi.foreign,hi.held,hm ▸ hi.valid,hi.count,hi.owner,hi.apart,hi.data,hi.child,
    hm ▸ hi.blocks⟩

lemma stable_of_mem_eq (hm : w.mem = h.w.mem) : Stable h { h with w := w } := by
  obtain ⟨hforeign,hnext,hdead,hview⟩ := Stable.refl h
  exact ⟨hforeign,hnext,hdead,hm ▸ hview⟩

lemma spawn_ok (hi : Inv h none) (hb : h.bufs id = some b) (hheld : h.held id = true)
    (hmax : b.refcount < sshbufRefsMax) {f : Sshbuf → World → Except Fault (Ret Sshbuf)}
    {s : Ret Sshbuf} (hf : f b h.w = .ok s) (hs : Spawns id b h.w s) :
    ∃ o h', spawn h id f = .ok (o,h') ∧ Inv h' none ∧ Stable h h' := by
  have hv := hi.valid id b hb
  obtain ⟨r,b',w'⟩ := s
  rw [spawn,hb]
  simp only [hf]
  cases r with
  | error e =>
    cases hs.failed e rfl
    obtain ⟨hinv,hstable⟩ := hi.move hb hheld (.of_mem_eq hv hs.mem)
    exact ⟨_,_,rfl,hinv,hstable⟩
  | ok c =>
    obtain ⟨hvc,hr,hone,hp,hblock⟩ := hs.child c rfl
    obtain ⟨b1,hm,rfl⟩ := hs.parent c rfl
    have hmem : w'.mem = h.w.mem := hs.mem
    obtain ⟨hinv,hstable⟩ := hi.move hb hheld (hm.of_mem hmem)
    generalize hh1 : ({ h.set id _ with w := w' }) = h1 at hinv hstable
    have hb1 : h1.bufs id = some b1 := by
      rw [← hh1]
      exact set_bufs_self
    have hset : ({ h.set id (some { b1 with refcount := b1.refcount + 1 }) with w := w' }) =
        h1.set id (some { b1 with refcount := b1.refcount + 1 }) := by
      rw [← hh1]
      simp only [Heap.set,Function.update_idem]
    have hvc1 : Valid h1.w.mem c := by
      rw [← hh1,show w'.mem = h.w.mem from hs.mem]
      exact hvc
    obtain ⟨hinv',hstable'⟩ := hinv.adopt hb1 (hm.refcount.trans_lt hmax) hvc1 hr hone hp
      (hblock.trans (hm.block_eq hv).symm)
    refine ⟨_,_,rfl,?_⟩
    rw [hset]
    exact ⟨hinv',hstable.trans hi.fresh hstable'⟩

lemma heapStep_ok {a : Allocator} (hi : Inv h none) (op : HeapOp) (hsafe : heapSafe a h op) :
    ∃ o h', heapStep a h op = .ok (o,h') ∧ Inv h' none ∧ Stable h h' := by
  cases op with
  | new =>
    rw [heapStep]
    cases hnew : sshbufNew a h.w with
    | mk o w' =>
      cases o with
      | none =>
        exact ⟨_,_,rfl,hi.of_mem_eq (sshbufNew_none hnew),stable_of_mem_eq (sshbufNew_none hnew)⟩
      | some b =>
        have hb := sshbufNew_some hnew
        have hborn : Born h b w' := .owner hb.readonly hb.parent (congrArg _ hb.cd) _ hb.mem
        have hi' : Inv h b.parent := by
          rw [hb.parent]
          exact hi
        exact ⟨_,_,rfl,hi'.add hborn hb.valid hb.refcount,stable_add hi hborn⟩
  | fromData blob len =>
    rw [heapStep]
    split
    · next hdata =>
      obtain ⟨cells,hcells,hfits⟩ := Memory.of_read_isSome hdata.2
      by_cases hlen : len ≤ sshbufSizeMax
      · obtain ⟨o,w',hfrom,hmem,hdenied,hgot⟩ := sshbufFrom_ok a len hcells hfits hlen
        rw [hfrom]
        cases hg : a.grants _ with
        | false =>
          rw [hdenied hg]
          exact ⟨_,_,rfl,hi.of_mem_eq hmem,stable_of_mem_eq hmem⟩
        | true =>
          obtain ⟨c,rfl,hview⟩ := hgot hg
          have hborn : Born h c w' := by
            refine .view hview.readonly hmem (fun _ => ?_) fun p hp => ?_
            · rw [hview.cd]
              exact hdata.1
            · rw [hview.parent] at hp
              cases hp
          have hi' : Inv h c.parent := by
            rw [hview.parent]
            exact hi
          exact ⟨_,_,rfl,hi'.add hborn (hmem ▸ hview.valid) hview.refcount,stable_add hi hborn⟩
      · rw [sshbufFrom,if_pos (not_le.mp hlen)]
        exact ⟨_,_,rfl,hi,.refl h⟩
    · exact ⟨_,h,rfl,hi,.refl h⟩
  | fromb id =>
    rw [heapStep]
    split
    · next hheld =>
      obtain ⟨b,hb⟩ := hi.held id hheld
      obtain ⟨s,hf,hs⟩ := sshbufFromb_spawns (hi.valid id b hb) a id
      exact spawn_ok hi hb hheld (hsafe b hb) hf hs
    · exact ⟨_,h,rfl,hi,.refl h⟩
  | froms id =>
    rw [heapStep]
    split
    · next hheld =>
      obtain ⟨b,hb⟩ := hi.held id hheld
      obtain ⟨s,hf,hs⟩ := sshbufFroms_spawns (hi.valid id b hb) a id
      exact spawn_ok hi hb hheld (hsafe b hb) hf hs
    · exact ⟨_,h,rfl,hi,.refl h⟩
  | call id op =>
    rw [heapStep]
    split
    · next hheld =>
      obtain ⟨b,hb⟩ := hi.held id hheld
      have hreset : op = .reset → resetSafe a b h.w := by
        rintro rfl
        exact hsafe b hb
      obtain ⟨o,b',w',hcall,hm⟩ := bufCall_moves (hi.valid id b hb) a op hreset
      obtain ⟨hinv,hstable⟩ := hi.move hb hheld hm
      rw [hb]
      simp only [hcall]
      exact ⟨_,_,rfl,hinv,hstable⟩
    · exact ⟨_,h,rfl,hi,.refl h⟩
  | free id =>
    rw [heapStep]
    split
    · next hheld =>
      obtain ⟨b,hb⟩ := hi.held id hheld
      obtain ⟨h',hfree,hinv,hstable⟩ := sshbufFreeLoop_ok (Nat.lt_succ_self id) (hi.unhold hheld) hb
      rw [sshbufFree,hfree]
      exact ⟨_,h',rfl,hinv,hstable.foreign,hstable.next,hstable.dead,hstable.view⟩
    · exact ⟨_,h,rfl,hi,.refl h⟩

lemma heapRun_ok {a : Allocator} {ops : List HeapOp} (hi : Inv h none)
    (hsafe : Guarded (heapStep a) (heapSafe a) h ops) :
    ∃ answers h', run (heapStep a) h ops = .ok (answers,h') ∧ Inv h' none ∧ Stable h h' :=
  run_guarded Stable.refl (fun _ _ _ hi hs hs' => Stable.trans hi.fresh hs hs')
    (fun _ op hi hsafe => heapStep_ok hi op hsafe) hi hsafe

lemma Inv.readonly_iff (hi : Inv h none) (hb : h.bufs id = some b) :
    b.readonly = true ↔ b.cd.block < h.foreign ∨ b.parent.isSome = true := by
  constructor
  · intro hr
    cases hp : b.parent with
    | none => exact .inl (hi.data id b hb hr hp)
    | some p => exact .inr rfl
  · intro hor
    by_contra hr
    rw [Bool.not_eq_true] at hr
    obtain ⟨hblock,hp⟩ := hi.owner id b hb hr
    rcases hor with hlow | hsome
    · omega
    · rw [hp] at hsome
      cases hsome

/-- In a run of calls that end well, the buffers in use are sane after every call. -/
theorem buffers_stay_sane (a : Allocator) (w : World) (ops : List HeapOp)
    (hsafe : Guarded (heapStep a) (heapSafe a) (.init w) ops) :
    ∃ answers h, run (heapStep a) (.init w) ops = .ok (answers,h) ∧
      ∀ i b, h.bufs i = some b → checkSanity b = true ∧
        (b.off ≤ b.size ∧ b.size ≤ b.alloc ∧ b.alloc ≤ b.maxSize ∧ b.maxSize ≤ sshbufSizeMax) ∧
        (1 ≤ b.refcount ∧ b.refcount ≤ sshbufRefsMax) ∧
        (b.readonly = true ↔ b.cd.block < w.mem.next ∨ b.parent.isSome = true) := by
  obtain ⟨answers,h,hrun,hi,hstable⟩ := heapRun_ok (inv_init w) hsafe
  refine ⟨answers,h,hrun,fun i b hb => ?_⟩
  have hv := hi.valid i b hb
  obtain ⟨-,hpos,hmax,-⟩ := checkSanity_iff.mp hv.sane
  have hforeign : h.foreign = w.mem.next := hstable.foreign
  rw [← hforeign]
  exact ⟨hv.sane,hv.bounds,⟨hpos,hmax⟩,hi.readonly_iff hb⟩

lemma Inv.wanted (hi : Inv h none) (hb : h.bufs id = some b) :
    ∃ j, h.held j = true ∧ Descends h.parents j id := by
  refine exists_wanted (n := h.nextBuf) (fun i => ∃ b, h.bufs i = some b) _
    (fun i hlive => ?_) ⟨b,hb⟩
  obtain ⟨c,hc⟩ := hlive
  by_contra hno
  simp only [not_or,Bool.not_eq_true] at hno
  obtain ⟨hheld,hnokid⟩ := hno
  -- a buffer that is not held has a reference, which is that of a child
  have hcount := hi.count i c hc
  have hpos := (checkSanity_iff.mp (hi.valid i c hc).sane).2.1
  have howed : owed none i = 0 := rfl
  rw [Heap.refs,hheld,Bool.toNat_false] at hcount
  obtain ⟨j,hj,hp⟩ := kids_pos_iff.mp (show 0 < kids h.parents h.nextBuf i by omega)
  obtain ⟨d,hd,hdp⟩ := Option.bind_eq_some_iff.mp hp
  exact hnokid ⟨j,(hi.child j d i hd hdp).1,hj,⟨d,hd⟩,hp⟩

/-- In a run of calls that end well, a view in use has the bytes it was made over, and a buffer or a
block is in use only for the sake of a pointer that the program has. No call faults, so nothing is
released twice. -/
theorem views_keep_bytes (a : Allocator) (w : World) (ops ops' : List HeapOp)
    (hsafe : Guarded (heapStep a) (heapSafe a) (.init w) (ops ++ ops')) :
    ∃ answers h answers' h', run (heapStep a) (.init w) ops = .ok (answers,h) ∧
      run (heapStep a) h ops' = .ok (answers',h') ∧
      (∀ i c c', h.bufs i = some c → c.readonly = true → h'.bufs i = some c' →
        c'.cd = c.cd ∧ c'.alloc = c.alloc ∧ ∃ cells, h.w.mem.block c.cd.block = some cells ∧
          h'.w.mem.block c.cd.block = some cells ∧ c.cd.pos + c.alloc ≤ cells.length) ∧
      (∀ i b, h'.bufs i = some b → ∃ j, h'.held j = true ∧ Descends h'.parents j i) ∧
      (∀ k, w.mem.next ≤ k → h'.w.mem.block k ≠ none →
        ∃ i b, h'.bufs i = some b ∧ b.readonly = false ∧ b.cd.block = k) ∧
      ((∀ j, h'.held j = false) → ∀ k, w.mem.next ≤ k → h'.w.mem.block k = none) := by
  obtain ⟨hsafe1,hsafe2⟩ := guarded_append.mp hsafe
  obtain ⟨answers,h,hrun,hi,hstable⟩ := heapRun_ok (inv_init w) hsafe1
  obtain ⟨answers',h',hrun',hi',hstable'⟩ := heapRun_ok hi (hsafe2 _ h hrun)
  have hforeign : h'.foreign = w.mem.next := hstable'.foreign.trans hstable.foreign
  have hblocks := hi'.blocks
  rw [hforeign] at hblocks
  refine ⟨answers,h,answers',h',hrun,hrun',fun i c c' hc hr hc' => ?_,fun i b hb => hi'.wanted hb,
    hblocks,fun hnone k hk => ?_⟩
  · obtain ⟨-,hcd,halloc,hblock⟩ := hstable'.view i c c' hc hr hc'
    obtain ⟨cells,hcells,hlen⟩ := (hi.valid i c hc).block
    exact ⟨hcd,halloc,cells,hcells,hblock.trans hcells,hlen⟩
  · by_contra hne
    obtain ⟨i,b,hb,-⟩ := hblocks k hk hne
    obtain ⟨j,hj,-⟩ := hi'.wanted hb
    rw [hnone j] at hj
    cases hj

end

def viewOps : List HeapOp := [.new,.fromb 0,.free 0]

lemma viewOps_safe : Guarded (heapStep generous) (heapSafe generous) (.init ⟨.empty,0⟩)
    (viewOps ++ [.free 1]) := by
  refine ⟨trivial,?_⟩
  rintro _ _ ⟨⟩
  refine ⟨?_,fun _ _ _ => ⟨trivial,fun _ _ _ => ⟨trivial,fun _ _ _ => trivial⟩⟩⟩
  rintro b ⟨⟩
  decide +kernel

theorem buffers_stay_sane_viewOps :
    Guarded (heapStep generous) (heapSafe generous) (.init ⟨.empty,0⟩) (viewOps ++ [.free 1]) ∧
    ∃ answers h, run (heapStep generous) (.init ⟨.empty,0⟩) (viewOps ++ [.free 1]) =
        .ok (answers,h) ∧ ∀ i b, h.bufs i = some b → checkSanity b = true ∧
        (b.off ≤ b.size ∧ b.size ≤ b.alloc ∧ b.alloc ≤ b.maxSize ∧ b.maxSize ≤ sshbufSizeMax) ∧
        (1 ≤ b.refcount ∧ b.refcount ≤ sshbufRefsMax) ∧
        (b.readonly = true ↔ b.cd.block < 0 ∨ b.parent.isSome = true) :=
  ⟨viewOps_safe,buffers_stay_sane _ _ _ viewOps_safe⟩

theorem views_keep_bytes_viewOps :
    ∃ answers h answers' h', run (heapStep generous) (.init ⟨.empty,0⟩) viewOps =
        .ok (answers,h) ∧ run (heapStep generous) h [.free 1] = .ok (answers',h') ∧
      (∀ i c c', h.bufs i = some c → c.readonly = true → h'.bufs i = some c' →
        c'.cd = c.cd ∧ c'.alloc = c.alloc ∧ ∃ cells, h.w.mem.block c.cd.block = some cells ∧
          h'.w.mem.block c.cd.block = some cells ∧ c.cd.pos + c.alloc ≤ cells.length) ∧
      (∀ i b, h'.bufs i = some b → ∃ j, h'.held j = true ∧ Descends h'.parents j i) ∧
      (∀ k, 0 ≤ k → h'.w.mem.block k ≠ none →
        ∃ i b, h'.bufs i = some b ∧ b.readonly = false ∧ b.cd.block = k) ∧
      ((∀ j, h'.held j = false) → ∀ k, 0 ≤ k → h'.w.mem.block k = none) :=
  views_keep_bytes _ _ _ _ viewOps_safe

/-- The limit of a buffer may be set below the allocation that a reset makes, which leaves a
buffer that is not sane. -/
theorem reset_leaves_insane : (run (heapStep generous) (.init ⟨.empty,0⟩)
      [.new,.call 0 (.setMaxSize 100),.call 0 .reset]).map
        (fun x => (x.2.bufs 0).map fun b => (b.alloc,b.maxSize,checkSanity b)) =
      .ok (some (256,100,false)) := by
  decide +kernel

/-- Then its memory is not released any more: `sshbuf_free` ends the process. -/
theorem reset_prevents_free : (run (heapStep generous) (.init ⟨.empty,0⟩)
      [.new,.call 0 (.setMaxSize 100),.fromb 0,.free 1,.call 0 .reset,.free 0]).map
        (fun x => x.1.length) = .error .sigsegv := by
  decide +kernel

end PkixSsh.Buffer
