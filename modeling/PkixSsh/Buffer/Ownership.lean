import PkixSsh.Buffer.Heap

/-!
# Who owns which block

A writable buffer has a block of its own, a child is a view of its parent's block, and reference
counts are exact. Only a buffer that is alone on its block is written to.
-/

namespace PkixSsh.Buffer

open Blocks Machine Forest Function Heap

def Heap.parents (h : Heap) (i : Nat) : Option Nat := (h.bufs i).bind Sshbuf.parent

/-- The reference that is on its way, if it is to buffer `i`. -/
def owed (e : Option Nat) (i : Nat) : Nat := if e = some i then 1 else 0

/-- The references of a buffer: the pointer of the program, its children, and one that is still to
be dropped or taken. -/
def Heap.refs (h : Heap) (e : Option Nat) (i : Nat) : Nat :=
  (h.held i).toNat + kids h.parents h.nextBuf i + owed e i

structure Inv (h : Heap) (e : Option Nat) : Prop where
  fresh : ∀ i, h.nextBuf ≤ i → h.bufs i = none
  foreign : h.foreign ≤ h.w.mem.next
  held : ∀ i, h.held i = true → ∃ b, h.bufs i = some b
  valid : ∀ i b, h.bufs i = some b → Valid h.w.mem b
  count : ∀ i b, h.bufs i = some b → b.refcount = h.refs e i
  owner : ∀ i b, h.bufs i = some b → b.readonly = false → h.foreign ≤ b.cd.block ∧ b.parent = none
  apart : ∀ i j b c, h.bufs i = some b → h.bufs j = some c → b.readonly = false →
    c.readonly = false → b.cd.block = c.cd.block → i = j
  data : ∀ i b, h.bufs i = some b → b.readonly = true → b.parent = none → b.cd.block < h.foreign
  child : ∀ i b p, h.bufs i = some b → b.parent = some p →
    p < i ∧ ∃ c, h.bufs p = some c ∧ c.cd.block = b.cd.block
  blocks : ∀ k, h.foreign ≤ k → h.w.mem.block k ≠ none →
    ∃ i b, h.bufs i = some b ∧ b.readonly = false ∧ b.cd.block = k

section

variable {h : Heap} {e : Option Nat} {id : Nat} {b b' : Sshbuf} {w' : World}

lemma inv_init (w : World) : Inv (.init w) none where
  fresh _ _ := rfl
  foreign := le_rfl
  held _ hi := by cases hi
  valid _ _ hb := by cases hb
  count _ _ hb := by cases hb
  owner _ _ hb := by cases hb
  apart _ _ _ _ hb := by cases hb
  data _ _ hb := by cases hb
  child _ _ _ hb := by cases hb
  blocks k hk hne := absurd (w.mem.fresh k hk) hne

lemma Inv.lt_nextBuf (hi : Inv h e) (hb : h.bufs id = some b) : id < h.nextBuf := by
  by_contra hge
  rw [hi.fresh id (by omega)] at hb
  cases hb

lemma Inv.kid (hi : Inv h e) {p : Nat} (hb : h.bufs id = some b) (hp : b.parent = some p) :
    0 < kids h.parents h.nextBuf p := by
  refine kids_pos_iff.mpr ⟨id,hi.lt_nextBuf hb,?_⟩
  rw [parents,hb]
  exact hp

variable {j : Nat} {c : Sshbuf} {o : Option Sshbuf}

lemma Inv.kid_of_block (hi : Inv h e) (hb : h.bufs id = some b) (hr : b.readonly = false)
    (hj : j ≠ id) (hc : h.bufs j = some c) (hblock : c.cd.block = b.cd.block) :
    0 < kids h.parents h.nextBuf id := by
  -- up through the parents of the view, to the one that owns the block
  induction j using Nat.strong_induction_on generalizing c with
  | _ j ih =>
    cases hcr : c.readonly with
    | false => exact absurd (hi.apart j id c b hc hb hcr hr hblock) hj
    | true =>
      cases hp : c.parent with
      | none =>
        have hlow := hi.data j c hc hcr hp
        have hhigh := (hi.owner id b hb hr).1
        omega
      | some p =>
        obtain ⟨hlt,c',hc',hblock'⟩ := hi.child j c p hc hp
        by_cases hpid : p = id
        · subst hpid
          exact hi.kid hc hp
        · exact ih p hlt hpid hc' (hblock'.trans hblock)

lemma Inv.alone (hi : Inv h none) (hb : h.bufs id = some b) (hheld : h.held id = true)
    (hr : b.readonly = false) (hone : b.refcount ≤ 1) (hj : j ≠ id) (hc : h.bufs j = some c) :
    c.cd.block ≠ b.cd.block := by
  intro hblock
  have hkid := hi.kid_of_block hb hr hj hc hblock
  have hcount := hi.count id b hb
  rw [refs,hheld] at hcount
  simp only [Bool.toNat_true] at hcount
  omega

lemma parents_set (hp : b'.parent = b.parent) (hb : h.bufs id = some b) :
    (h.set id (some b')).parents = h.parents := by
  funext i
  rw [Heap.parents,Heap.parents,Heap.set]
  dsimp only
  by_cases hi : i = id
  · subst hi
    rw [update_self,hb]
    exact hp
  · rw [update_of_ne hi]

lemma update_cases {α : Type} {f : Nat → α} {x y : α} (h : update f id x j = y) :
    (j = id ∧ x = y) ∨ (j ≠ id ∧ f j = y) := by
  by_cases hj : j = id
  · subst hj
    rw [update_self] at h
    exact .inl ⟨rfl,h⟩
  · rw [update_of_ne hj] at h
    exact .inr ⟨hj,h⟩

lemma set_bufs_of_ne (hj : j ≠ id) : (h.set id o).bufs j = h.bufs j := update_of_ne hj ..

lemma set_bufs_self : (h.set id o).bufs id = o := update_self ..

/-- The buffer is replaced, and its block may have moved to one that was not in use if no other
buffer uses it. -/
lemma Inv.replace {e' : Option Nat} (hi : Inv h e) (hb : h.bufs id = some b)
    (hv : Valid w'.mem b') (hr : b'.readonly = b.readonly) (hp : b'.parent = b.parent)
    (hc : Carries h.w.mem w'.mem b.cd.block b'.cd.block)
    (hframe : ∀ j c, j ≠ id → h.bufs j = some c →
      w'.mem.block c.cd.block = h.w.mem.block c.cd.block)
    (hstay : b'.cd.block = b.cd.block ∨ (h.w.mem.next ≤ b'.cd.block ∧ b.readonly = false ∧
      ∀ j c, j ≠ id → h.bufs j = some c → c.cd.block ≠ b.cd.block))
    (hcount : b'.refcount = h.refs e' id) (howed : ∀ i, i ≠ id → owed e' i = owed e i) :
    Inv { h.set id (some b') with w := w' } e' where
  fresh i hle := by
    have hid := hi.lt_nextBuf hb
    exact (set_bufs_of_ne (by dsimp only [Heap.set] at hle; omega)).trans (hi.fresh i hle)
  foreign := hi.foreign.trans hc.next
  held i hheld := by
    by_cases hid : i = id
    · subst hid
      exact ⟨b',set_bufs_self⟩
    · obtain ⟨c,hc⟩ := hi.held i hheld
      exact ⟨c,(set_bufs_of_ne hid).trans hc⟩
  valid i c hci := by
    rcases update_cases hci with ⟨-,⟨⟩⟩ | ⟨hne,hc'⟩
    · exact hv
    · exact (hi.valid i c hc').frame (hframe i c hne hc')
  count i c hci := by
    have hrefs : refs { h.set id _ with w := w' } e' i = h.refs e' i :=
      congrArg (fun f => (h.held i).toNat + kids f _ i + owed e' i) (parents_set hp hb)
    rw [hrefs]
    rcases update_cases hci with ⟨rfl,⟨⟩⟩ | ⟨hne,hc'⟩
    · exact hcount
    · rw [hi.count i c hc',refs,refs,howed i hne]
  owner i c hci hcr := by
    rcases update_cases hci with ⟨rfl,⟨⟩⟩ | ⟨hne,hc'⟩
    · obtain ⟨hblock,hparent⟩ := hi.owner i b hb (hr.symm.trans hcr)
      refine ⟨?_,hp.trans hparent⟩
      rcases hstay with hstay | hstay
      · exact hblock.trans_eq hstay.symm
      · exact hi.foreign.trans hstay.1
    · exact hi.owner i c hc' hcr
  apart i j c c' hci hcj hcr hcr' hblock := by
    -- the block of the new buffer is the old one or was not in use
    have hnew : ∀ j c, j ≠ id → h.bufs j = some c → c.readonly = false → b'.readonly = false →
        b'.cd.block ≠ c.cd.block := by
      intro j c hne hc hcr hr' hblock
      rcases hstay with hstay | hstay
      · exact hne (hi.apart j id c b hc hb hcr (hr.symm.trans hr') (hblock.symm.trans hstay))
      · have := (hi.valid j c hc).lt_next
        omega
    rcases update_cases hci with ⟨rfl,⟨⟩⟩ | ⟨hne,hc'⟩
    · rcases update_cases hcj with ⟨rfl,-⟩ | ⟨hne',hc''⟩
      · rfl
      · exact absurd hblock (hnew j c' hne' hc'' hcr' hcr)
    · rcases update_cases hcj with ⟨rfl,⟨⟩⟩ | ⟨hne',hc''⟩
      · exact absurd hblock.symm (hnew i c hne hc' hcr hcr')
      · exact hi.apart i j c c' hc' hc'' hcr hcr' hblock
  data i c hci hcr hparent := by
    rcases update_cases hci with ⟨rfl,⟨⟩⟩ | ⟨hne,hc'⟩
    · have hlow := hi.data i b hb (hr.symm.trans hcr) (hp.symm.trans hparent)
      rcases hstay with hstay | ⟨-,hw,-⟩
      · exact hstay.trans_lt hlow
      · rw [hr,hw] at hcr
        cases hcr
    · exact hi.data i c hc' hcr hparent
  child i c p hci hparent := by
    rcases update_cases hci with ⟨rfl,⟨⟩⟩ | ⟨hne,hc'⟩
    · obtain ⟨hlt,c,hcp,hblock⟩ := hi.child i b p hb (hp.symm.trans hparent)
      refine ⟨hlt,c,(set_bufs_of_ne hlt.ne).trans hcp,?_⟩
      rcases hstay with hstay | ⟨-,hw,-⟩
      · exact hblock.trans hstay.symm
      · have := (hi.owner i b hb hw).2
        rw [← hp,hparent] at this
        cases this
    · obtain ⟨hlt,c',hcp,hblock⟩ := hi.child i c p hc' hparent
      refine ⟨hlt,?_⟩
      by_cases hpid : p = id
      · subst hpid
        rw [hb] at hcp
        cases hcp
        refine ⟨b',set_bufs_self,?_⟩
        rcases hstay with hstay | hstay
        · exact hstay.trans hblock
        · exact absurd hblock.symm (hstay.2.2 i c hne hc')
      · exact ⟨c',(set_bufs_of_ne hpid).trans hcp,hblock⟩
  blocks k hk hne := by
    have hother : b.cd.block ≠ k ∨ b.readonly = true → h.w.mem.block k ≠ none →
        ∃ i c, (h.set id (some b')).bufs i = some c ∧ c.readonly = false ∧ c.cd.block = k := by
      intro hor hblock
      obtain ⟨i,c,hci,hcr,hck⟩ := hi.blocks k hk hblock
      refine ⟨i,c,(set_bufs_of_ne ?_).trans hci,hcr,hck⟩
      rintro rfl
      rw [hb] at hci
      cases hci
      rcases hor with hor | hor
      · exact hor hck
      · rw [hor] at hcr
        cases hcr
    by_cases hkb : k = b'.cd.block
    · cases hbr : b.readonly with
      | false => exact ⟨id,b',set_bufs_self,hr.trans hbr,hkb.symm⟩
      | true =>
        have hstay' : b'.cd.block = b.cd.block := hstay.resolve_right fun ⟨_,hw,_⟩ => by
          rw [hbr] at hw
          cases hw
        obtain ⟨cells,hcells,-⟩ := (hi.valid id b hb).block
        refine hother (.inr hbr) ?_
        rw [hkb,hstay',hcells]
        exact Option.some_ne_none _
    · have hlt : k < h.w.mem.next := by
        by_contra hge
        exact hne (hc.fresh k (by omega) hkb)
      have hold : k ≠ b.cd.block := by
        rintro rfl
        exact hne (hc.moved fun heq => hkb heq.symm).2
      refine hother (.inl hold.symm) ?_
      rw [← hc.frame k hold hlt]
      exact hne

/-- No buffer comes back, and a view that is still there has its bytes where they were and as
they were. -/
structure Stable (h h' : Heap) : Prop where
  foreign : h'.foreign = h.foreign
  next : h.nextBuf ≤ h'.nextBuf
  dead : ∀ i, i < h.nextBuf → h.bufs i = none → h'.bufs i = none
  view : ∀ i c c', h.bufs i = some c → c.readonly = true → h'.bufs i = some c' →
    c'.readonly = true ∧ c'.cd = c.cd ∧ c'.alloc = c.alloc ∧
      h'.w.mem.block c.cd.block = h.w.mem.block c.cd.block

lemma Stable.refl (h : Heap) : Stable h h := by
  refine ⟨rfl,le_rfl,fun _ _ hn => hn,fun i c c' hc hr hc' => ?_⟩
  rw [hc] at hc'
  cases hc'
  exact ⟨hr,rfl,rfl,rfl⟩

lemma Stable.trans {h1 h2 h3 : Heap} (hf : ∀ i, h1.nextBuf ≤ i → h1.bufs i = none)
    (h : Stable h1 h2) (h' : Stable h2 h3) : Stable h1 h3 := by
  refine ⟨h'.foreign.trans h.foreign,h.next.trans h'.next,fun i hi hn => ?_,
    fun i c c'' hc hr hc'' => ?_⟩
  · exact h'.dead i (hi.trans_le h.next) (h.dead i hi hn)
  · have hlt : i < h1.nextBuf := by
      by_contra hge
      rw [hf i (by omega)] at hc
      cases hc
    cases hc' : h2.bufs i with
    | none =>
      rw [h'.dead i (hlt.trans_le h.next) hc'] at hc''
      cases hc''
    | some c' =>
      obtain ⟨hr',hcd,halloc,hblock⟩ := h.view i c c' hc hr hc'
      obtain ⟨hr'',hcd',halloc',hblock'⟩ := h'.view i c' c'' hc' hr' hc''
      rw [hcd] at hblock'
      exact ⟨hr'',hcd'.trans hcd,halloc'.trans halloc,hblock'.trans hblock⟩

lemma stable_set (hb : h.bufs id = some b) (hframe : ∀ j c, j ≠ id → h.bufs j = some c →
      w'.mem.block c.cd.block = h.w.mem.block c.cd.block)
    (ho : ∀ c, o = some c → b.readonly = true → c.readonly = true ∧ c.cd = b.cd ∧
      c.alloc = b.alloc ∧ w'.mem.block b.cd.block = h.w.mem.block b.cd.block) :
    Stable h { h.set id o with w := w' } := by
  refine ⟨rfl,le_rfl,fun i hlt hn => ?_,fun i c c' hc hr hc' => ?_⟩
  · by_cases hid : i = id
    · subst hid
      cases hb.symm.trans hn
    · exact (set_bufs_of_ne hid).trans hn
  · rcases update_cases hc' with ⟨rfl,hc''⟩ | ⟨hne,hc''⟩
    · cases hb.symm.trans hc
      exact ho c' hc'' hr
    · cases hc.symm.trans hc''
      exact ⟨hr,rfl,rfl,hframe i c hne hc⟩

lemma Inv.move (hi : Inv h none) (hb : h.bufs id = some b) (hheld : h.held id = true)
    (hm : Moves b h.w b' w') : Inv { h.set id (some b') with w := w' } none ∧
      Stable h { h.set id (some b') with w := w' } := by
  have hframe : ∀ j c, j ≠ id → h.bufs j = some c →
      w'.mem.block c.cd.block = h.w.mem.block c.cd.block := by
    intro j c hj hc
    exact hm.other (hi.valid j c hc).lt_next fun hr hone => (hi.alone hb hheld hr hone hj hc).symm
  have hcount : b'.refcount = h.refs none id := hm.refcount.trans (hi.count id b hb)
  refine ⟨hi.replace hb hm.valid hm.readonly hm.parent hm.carries hframe ?_ hcount fun _ _ => rfl,
    stable_set hb hframe fun c hc hr => ?_⟩
  · by_cases hstay : b'.cd.block = b.cd.block
    · exact .inl hstay
    · have hns : ¬ (b.readonly = true ∨ 1 < b.refcount) := fun hs => by
        rw [(hm.shared hs).1] at hstay
        exact hstay rfl
      simp only [not_or,Bool.not_eq_true,not_lt] at hns
      exact .inr ⟨(hm.carries.moved hstay).1,hns.1,fun j c => hi.alone hb hheld hns.1 hns.2⟩
  · cases hc
    obtain ⟨hcd,halloc,hmem⟩ := hm.shared (.inl hr)
    exact ⟨hm.readonly.trans hr,hcd,halloc,congrArg (Memory.block · _) hmem⟩

lemma Inv.recount {e' : Option Nat} (hi : Inv h e) (hb : h.bufs id = some b) (n : Nat)
    (hn : 1 ≤ n) (hmax : n ≤ sshbufRefsMax) (hcount : n = h.refs e' id)
    (howed : ∀ i, i ≠ id → owed e' i = owed e i) :
    Inv (h.set id (some { b with refcount := n })) e' := by
  have hv := hi.valid id b hb
  obtain ⟨hd,-,-,hrest⟩ := checkSanity_iff.mp hv.sane
  have hv' : Valid _ { b with refcount := n } :=
    ⟨checkSanity_iff.mpr ⟨hd,hn,hmax,hrest⟩,hv.view,hv.start,hv.block⟩
  have hset := hi.replace hb hv' rfl rfl (.refl _ _) (fun _ _ _ _ => rfl) (.inl rfl) hcount howed
  exact hset

lemma add_bufs_of_lt (b : Sshbuf) (hj : j < h.nextBuf) :
    (h.add b).bufs j = h.bufs j := update_of_ne hj.ne ..

lemma Inv.kids_nextBuf (hi : Inv h e) (hp : ∀ p, b.parent = some p → p < h.nextBuf) :
    kids (h.add b).parents (h.nextBuf + 1) h.nextBuf = 0 := by
  by_contra hne
  obtain ⟨j,hj,hparent⟩ := kids_pos_iff.mp (Nat.pos_of_ne_zero hne)
  obtain ⟨c,hc,hcp⟩ := Option.bind_eq_some_iff.mp hparent
  rcases update_cases hc with ⟨-,⟨⟩⟩ | ⟨-,hc'⟩
  · have := hp _ hcp
    omega
  · have hlt := (hi.child j c _ hc' hcp).1
    omega

lemma kids_add {i : Nat} :
    kids (h.add b).parents (h.nextBuf + 1) i = kids h.parents h.nextBuf i + owed b.parent i := by
  rw [kids_succ,owed]
  congr 1
  · refine kids_congr (fun j hj => ?_) i
    rw [parents,parents,add_bufs_of_lt b hj]
  · have hnew : (h.add b).parents h.nextBuf = b.parent := by
      rw [parents,add]
      dsimp only
      rw [update_self]
      rfl
    rw [hnew]

lemma refs_add (b : Sshbuf) (w' : World) (i : Nat) : (add { h with w := w' } b).refs none i =
      (update h.held h.nextBuf true i).toNat +
        kids (h.add b).parents (h.nextBuf + 1) i := rfl

/-- The kinds of new buffers: with a block of its own, or a view of memory of the program or of
its parent. -/
inductive Born (h : Heap) (c : Sshbuf) (w' : World) : Prop
  | owner (hr : c.readonly = false) (hp : c.parent = none) (hblock : c.cd.block = h.w.mem.next)
    (cells : Bytes) (hmem : w'.mem = h.w.mem.alloc cells) : Born h c w'
  | view (hr : c.readonly = true) (hmem : w'.mem = h.w.mem)
    (hdata : c.parent = none → c.cd.block < h.foreign)
    (hp : ∀ p, c.parent = some p → ∃ b, h.bufs p = some b ∧ b.cd.block = c.cd.block) : Born h c w'

lemma Born.frame (hborn : Born h c w') {k : Nat} (hk : k < h.w.mem.next) :
    w'.mem.block k = h.w.mem.block k := by
  cases hborn with
  | owner _ _ _ cells hmem =>
    rw [hmem]
    exact Memory.block_alloc_of_ne _ _ hk.ne
  | view _ hmem => rw [hmem]

lemma Born.next (hborn : Born h c w') : h.w.mem.next ≤ w'.mem.next := by
  cases hborn with
  | owner _ _ _ cells hmem =>
    rw [hmem]
    exact Nat.le_succ _
  | view _ hmem => rw [hmem]

lemma Born.parent_lt (hi : Inv h e) (hborn : Born h c w') {p : Nat} (hp : c.parent = some p) :
    p < h.nextBuf := by
  cases hborn with
  | owner _ hno =>
    rw [hno] at hp
    cases hp
  | view _ _ _ hparent =>
    obtain ⟨b,hb,-⟩ := hparent p hp
    exact hi.lt_nextBuf hb

lemma Inv.add (hi : Inv h c.parent) (hborn : Born h c w') (hv : Valid w'.mem c)
    (hone : c.refcount = 1) : Inv ({ h with w := w' }.add c) none where
  fresh i hle := by
    change h.nextBuf + 1 ≤ i at hle
    exact (update_of_ne (by dsimp only; omega) ..).trans (hi.fresh i (by omega))
  foreign := hi.foreign.trans hborn.next
  held i hheld := by
    by_cases hn : i = h.nextBuf
    · subst hn
      exact ⟨c,update_self ..⟩
    · have hheld' : h.held i = true := by
        rw [← hheld]
        exact (update_of_ne hn ..).symm
      obtain ⟨d,hd⟩ := hi.held i hheld'
      exact ⟨d,(add_bufs_of_lt c (hi.lt_nextBuf hd)).trans hd⟩
  valid i d hd := by
    rcases update_cases hd with ⟨-,⟨⟩⟩ | ⟨-,hd'⟩
    · exact hv
    · exact (hi.valid i d hd').frame (hborn.frame (hi.valid i d hd').lt_next)
  count i d hd := by
    rw [refs_add]
    rcases update_cases hd with ⟨rfl,⟨⟩⟩ | ⟨hne,hd'⟩
    · rw [hi.kids_nextBuf fun p => hborn.parent_lt hi,update_self,hone]
      rfl
    · rw [hi.count i d hd',Heap.refs,kids_add,update_of_ne hne,Nat.add_assoc]
  owner i d hd hr := by
    rcases update_cases hd with ⟨-,⟨⟩⟩ | ⟨-,hd'⟩
    · cases hborn with
      | owner _ hp hblock => exact ⟨hi.foreign.trans_eq hblock.symm,hp⟩
      | view hr' =>
        rw [hr] at hr'
        cases hr'
    · exact hi.owner i d hd' hr
  apart i j d d' hd hd' hr hr' hblock := by
    have hnew : ∀ j d, h.bufs j = some d → c.readonly = false → d.cd.block ≠ c.cd.block := by
      intro j d hd hcr hblock
      have hlt := (hi.valid j d hd).lt_next
      cases hborn with
      | owner _ _ hnext => omega
      | view hr' =>
        rw [hcr] at hr'
        cases hr'
    rcases update_cases hd with ⟨rfl,⟨⟩⟩ | ⟨-,hd1⟩
    · rcases update_cases hd' with ⟨rfl,-⟩ | ⟨-,hd2⟩
      · rfl
      · exact absurd hblock.symm (hnew j d' hd2 hr)
    · rcases update_cases hd' with ⟨rfl,⟨⟩⟩ | ⟨-,hd2⟩
      · exact absurd hblock (hnew i d hd1 hr')
      · exact hi.apart i j d d' hd1 hd2 hr hr' hblock
  data i d hd hr hp := by
    rcases update_cases hd with ⟨-,⟨⟩⟩ | ⟨-,hd'⟩
    · cases hborn with
      | owner hr' =>
        rw [hr] at hr'
        cases hr'
      | view _ _ hdata => exact hdata hp
    · exact hi.data i d hd' hr hp
  child i d p hd hp := by
    rcases update_cases hd with ⟨rfl,⟨⟩⟩ | ⟨-,hd'⟩
    · have hlt := hborn.parent_lt hi hp
      refine ⟨hlt,?_⟩
      cases hborn with
      | owner _ hno =>
        rw [hno] at hp
        cases hp
      | view _ _ _ hparent =>
        obtain ⟨b,hb,hblock⟩ := hparent p hp
        exact ⟨b,(add_bufs_of_lt _ hlt).trans hb,hblock⟩
    · obtain ⟨hlt,b,hb,hblock⟩ := hi.child i d p hd' hp
      exact ⟨hlt,b,(add_bufs_of_lt _ (hi.lt_nextBuf hb)).trans hb,hblock⟩
  blocks k hk hne := by
    have hold : h.w.mem.block k ≠ none →
        ∃ i d, (Heap.add { h with w := w' } c).bufs i = some d ∧ d.readonly = false ∧
          d.cd.block = k := by
      intro hblock
      obtain ⟨i,d,hd,hr,hdk⟩ := hi.blocks k hk hblock
      exact ⟨i,d,(add_bufs_of_lt c (hi.lt_nextBuf hd)).trans hd,hr,hdk⟩
    change w'.mem.block k ≠ none at hne
    cases hborn with
    | view _ hmem =>
      rw [hmem] at hne
      exact hold hne
    | owner hr _ hblock cells hmem =>
      by_cases hkn : k = h.w.mem.next
      · exact ⟨h.nextBuf,c,update_self ..,hr,hblock.trans hkn.symm⟩
      · rw [hmem,Memory.block_alloc_of_ne _ _ hkn] at hne
        exact hold hne

lemma stable_add (hi : Inv h e) (hborn : Born h c w') : Stable h ({ h with w := w' }.add c) := by
  refine ⟨rfl,Nat.le_succ _,fun i hlt hn => (add_bufs_of_lt c hlt).trans hn,
    fun i d d' hd hr hd' => ?_⟩
  rcases update_cases hd' with ⟨rfl,-⟩ | ⟨-,hd''⟩
  · exact absurd (hi.lt_nextBuf hd) (lt_irrefl _)
  · cases hd.symm.trans hd''
    exact ⟨hr,rfl,rfl,hborn.frame (hi.valid i d hd).lt_next⟩

lemma Inv.adopt (hi : Inv h none) (hb : h.bufs id = some b) (hmax : b.refcount < sshbufRefsMax)
    (hv : Valid h.w.mem c) (hr : c.readonly = true) (hone : c.refcount = 1)
    (hp : c.parent = some id) (hblock : c.cd.block = b.cd.block) :
    Inv ((h.set id (some { b with refcount := b.refcount + 1 })).add c) none ∧
      Stable h ((h.set id (some { b with refcount := b.refcount + 1 })).add c) := by
  have hinv : Inv (h.set id (some { b with refcount := b.refcount + 1 })) c.parent := by
    rw [hp]
    refine hi.recount hb _ (by omega) (by omega) ?_ fun i hne => ?_
    · rw [hi.count id b hb,refs,refs,owed,owed,if_pos rfl,if_neg (by simp)]
    · rw [owed,owed,if_neg fun heq => hne (Option.some.inj heq).symm,if_neg (by simp)]
  have hstable : Stable h (h.set id (some { b with refcount := b.refcount + 1 })) :=
    stable_set hb (fun _ _ _ _ => rfl) fun d hd hr => by cases hd; exact ⟨hr,rfl,rfl,rfl⟩
  have hborn : Born (h.set id (some { b with refcount := b.refcount + 1 })) c h.w := by
    refine .view hr rfl (fun hno => ?_) fun p hp' => ?_
    · rw [hp] at hno
      cases hno
    · rw [hp] at hp'
      cases hp'
      exact ⟨_,set_bufs_self,hblock.symm⟩
  exact ⟨hinv.add hborn hv hone,hstable.trans hi.fresh (stable_add hinv hborn)⟩

lemma Inv.unhold (hi : Inv h none) (hheld : h.held id = true) :
    Inv { h with held := update h.held id false } (some id) := by
  refine ⟨hi.fresh,hi.foreign,fun i hh => ?_,hi.valid,fun i b hb => ?_,hi.owner,hi.apart,hi.data,
    hi.child,hi.blocks⟩
  · change update h.held id false i = true at hh
    by_cases hid : i = id
    · subst hid
      rw [update_self] at hh
      cases hh
    · rw [update_of_ne hid] at hh
      exact hi.held i hh
  · have hcount := hi.count i b hb
    change _ = (update h.held id false i).toNat + kids h.parents _ i + owed _ i
    rw [refs] at hcount
    by_cases hid : i = id
    · subst hid
      rw [hheld] at hcount
      rw [hcount,update_self,owed,owed,if_pos rfl,if_neg (by simp)]
      simp only [Bool.toNat_true,Bool.toNat_false]
      omega
    · rw [hcount,update_of_ne hid,owed,owed,if_neg (by simp),
        if_neg fun h => hid (Option.some.inj h).symm]

lemma parents_set_none : (h.set id none).parents = update h.parents id none := by
  funext i
  rw [parents]
  by_cases hi : i = id
  · subst hi
    rw [set_bufs_self,update_self]
    rfl
  · rw [set_bufs_of_ne hi,update_of_ne hi]
    rfl

variable (hi : Inv h (some id))

include hi

variable (hb : h.bufs id = some b)

include hb

variable (hone : b.refcount = 1)

include hone

lemma Inv.last :
    h.held id = false ∧ kids h.parents h.nextBuf id = 0 := by
  have hcount := hi.count id b hb
  rw [refs,owed,if_pos rfl] at hcount
  have hheld : (h.held id).toNat = 0 := by omega
  exact ⟨Bool.toNat_eq_zero.mp hheld,by omega⟩

/-- What becomes of the memory with a buffer: the block it owns is released. -/
structure Released (m m' : Memory UInt8) (b : Sshbuf) : Prop where
  next : m'.next = m.next
  frame : ∀ k, b.readonly = true ∨ k ≠ b.cd.block → m'.block k = m.block k
  gone : b.readonly = false → m'.block b.cd.block = none

lemma Inv.other_block
    (hj : j ≠ id) (hc : h.bufs j = some c) : b.readonly = true ∨ c.cd.block ≠ b.cd.block := by
  by_contra hno
  simp only [not_or,Bool.not_eq_true,not_not] at hno
  have hkid := hi.kid_of_block hb hno.1 hj hc hno.2
  have hkids := (hi.last hb hone).2
  omega

lemma Inv.remove
    (hrel : Released h.w.mem w'.mem b) : Inv { h.set id none with w := w' } b.parent where
  fresh i hle := by
    by_cases hid : i = id
    · subst hid
      exact set_bufs_self
    · exact (set_bufs_of_ne hid).trans (hi.fresh i hle)
  foreign := hi.foreign.trans_eq hrel.next.symm
  held i hheld := by
    obtain ⟨c,hc⟩ := hi.held i hheld
    refine ⟨c,(set_bufs_of_ne ?_).trans hc⟩
    rintro rfl
    cases (hi.last hb hone).1.symm.trans hheld
  valid i c hc := by
    obtain ⟨-,⟨⟩⟩ | ⟨hne,hc'⟩ := update_cases hc
    exact (hi.valid i c hc').frame (hrel.frame _ (hi.other_block hb hone hne hc'))
  count i c hc := by
    obtain ⟨-,⟨⟩⟩ | ⟨hne,hc'⟩ := update_cases hc
    have hparent : h.parents id = b.parent := by
      rw [parents,hb]
      rfl
    have hkids := kids_update_none (f := h.parents) (hi.lt_nextBuf hb) i
    rw [hparent,← parents_set_none] at hkids
    have hcount := hi.count i c hc'
    rw [refs,owed,if_neg fun heq => hne (Option.some.inj heq).symm,← hkids] at hcount
    rw [hcount]
    exact (Nat.add_zero _).trans (Nat.add_assoc ..).symm
  owner i c hc hr := by
    obtain ⟨-,⟨⟩⟩ | ⟨-,hc'⟩ := update_cases hc
    exact hi.owner i c hc' hr
  apart i j c c' hc hc' hr hr' hblock := by
    obtain ⟨-,⟨⟩⟩ | ⟨-,hc1⟩ := update_cases hc
    obtain ⟨-,⟨⟩⟩ | ⟨-,hc2⟩ := update_cases hc'
    exact hi.apart i j c c' hc1 hc2 hr hr' hblock
  data i c hc hr hp := by
    obtain ⟨-,⟨⟩⟩ | ⟨-,hc'⟩ := update_cases hc
    exact hi.data i c hc' hr hp
  child i c p hc hp := by
    obtain ⟨-,⟨⟩⟩ | ⟨-,hc'⟩ := update_cases hc
    obtain ⟨hlt,c',hcp,hblock⟩ := hi.child i c p hc' hp
    refine ⟨hlt,c',(set_bufs_of_ne ?_).trans hcp,hblock⟩
    rintro rfl
    have hkid := hi.kid hc' hp
    have hkids := (hi.last hb hone).2
    omega
  blocks k hk hne := by
    have hnot : b.readonly = true ∨ k ≠ b.cd.block := by
      by_contra hno
      simp only [not_or,Bool.not_eq_true,not_not] at hno
      exact hne (hno.2 ▸ hrel.gone hno.1)
    rw [hrel.frame k hnot] at hne
    obtain ⟨i,c,hc,hr,hck⟩ := hi.blocks k hk hne
    refine ⟨i,c,(set_bufs_of_ne ?_).trans hc,hr,hck⟩
    rintro rfl
    rw [hb] at hc
    cases hc
    rcases hnot with hnot | hnot
    · rw [hr] at hnot
      cases hnot
    · exact hnot hck.symm

lemma stable_remove
    (hrel : Released h.w.mem w'.mem b) : Stable h { h.set id none with w := w' } :=
  stable_set hb (fun _ _ hne hc => hrel.frame _ (hi.other_block hb hone hne hc)) nofun

end

end PkixSsh.Buffer
