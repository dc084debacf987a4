import PkixSsh.Krl.Plan

/-!
# What is written for the serials

The loop of `revoked_certs_generate` follows the groups of the ranges.
-/

namespace PkixSsh.Krl

open Key X509 Sshbuf IntervalList List Option BigEndian

def recordBytes (r : UInt8 × Bytes) : Bytes := r.1 :: framed r.2

variable {buf : Bytes} {g : Gen} {rs : RevokedSerial} {r : Gen ⊕ Bytes} {c : Codec}

lemma putRecord_ok {type : UInt8} {sect r : Bytes}
    (h : (putU8 type buf >>= putString sect) = .ok r) :
    r = buf ++ recordBytes (type,sect) ∧ r.length ≤ sshbufSizeMax := by
  obtain ⟨b,hb,h⟩ := bind_eq_ok.mp h
  obtain ⟨-,rfl⟩ := put_iff.mp hb
  obtain ⟨hl,rfl⟩ := putString_iff.mp h
  refine ⟨by rw [recordBytes,append_assoc]; rfl,?_⟩
  rw [length_append]
  exact hl

lemma foldlM_put {α : Type} {f : α → Bytes} {xs : List α} {b r : Bytes}
    (h : xs.foldlM (fun b x => put (f x) b) b = .ok r) : r = b ++ xs.flatMap f := by
  induction xs generalizing b with
  | nil =>
    cases h
    simp
  | cons x xs ih =>
    obtain ⟨b',hb',h⟩ := bind_eq_ok.mp h
    obtain ⟨-,rfl⟩ := put_iff.mp hb'
    rw [ih h,flatMap_cons,append_assoc]

def rangeBytes (rs : RevokedSerial) : Bytes :=
  encode 8 rs.lo ++ encode 8 rs.hi

def Group.body (g : Group) : Bytes :=
  match g.kind with
  | .list => (serials g.ranges).flatMap (encode 8)
  | .range => g.ranges.flatMap rangeBytes
  | .bitmap =>
    encode 8 g.first.lo ++
      framed (bignumBytes (encode ((g.bits.size + 7) / 8) g.bits))

def Group.record (g : Group) : UInt8 × Bytes := (g.kind.code,g.body)

def HoldsGroup (s : Group) (g : Gen) : Prop :=
  match s.kind with
  | .list => g.sect = (serials s.ranges).flatMap (encode 8)
  | .range => g.sect = s.ranges.flatMap rangeBytes
  | .bitmap =>
    g.sect = encode 8 s.first.lo ∧ g.bitmapStart = s.first.lo ∧
      g.bitmap.value = s.bits ∧ s.last.hi - s.first.lo ≤ bitmapMax

lemma putBitmap_ok {bitmap : Bitmap} {r : Bytes} (h : putBitmap bitmap buf = .ok r) :
    r = buf ++ framed (bignumBytes
      (encode ((bitmap.value.size + 7) / 8) bitmap.value)) := by
  rw [putBitmap,bitmapToString_eq,bitmapNbytes,bitmapNbits_eq] at h
  simp only [putBignum2Bytes] at h
  split at h
  · cases h
  · exact (put_iff.mp h).2

lemma finishSection_ok {s : Group} {g' : Gen} (hs : HoldsGroup s g)
    (h : finishSection s.kind g = .ok g') :
    g' = { g with sect := [], buf := g.buf ++ recordBytes s.record } := by
  rw [finishSection] at h
  obtain ⟨sect,hsect,h⟩ := bind_eq_ok.mp h
  have hbody : sect = s.body := by
    rw [HoldsGroup] at hs
    rw [Group.body]
    cases hk : s.kind with
    | list =>
      rw [hk] at hs hsect
      cases hsect
      exact hs
    | range =>
      rw [hk] at hs hsect
      cases hsect
      exact hs
    | bitmap =>
      rw [hk] at hs hsect
      rw [putBitmap_ok hsect,hs.1,hs.2.2.1]
  obtain ⟨b,hb,h⟩ := bind_eq_ok.mp h
  obtain ⟨b',hb',h⟩ := bind_eq_ok.mp h
  cases h
  have hrec := putRecord_ok (bind_eq_ok.mpr ⟨b,hb,hb'⟩)
  rw [hrec.1,hbody]
  rfl

lemma serials_singleton (rs : RevokedSerial) :
    serials [rs] = (List.range (contig rs)).map (rs.lo + ·) := by
  rw [serials,flatMap_cons,flatMap_nil,append_nil]

lemma fillSection_list (h : fillSection .list rs g = .ok r) :
    r = .inl { g with sect := g.sect ++ (serials [rs]).flatMap (encode 8) } := by
  obtain ⟨sect,hsect,h⟩ := bind_eq_ok.mp h
  cases h
  rw [foldlM_put hsect,serials_singleton,flatMap_map]

lemma fillSection_range (h : fillSection .range rs g = .ok r) :
    r = .inl { g with sect := g.sect ++ rangeBytes rs } := by
  obtain ⟨sect,hsect,h⟩ := bind_eq_ok.mp h
  obtain ⟨b,hb,hsect⟩ := bind_eq_ok.mp hsect
  cases h
  obtain ⟨-,rfl⟩ := put_iff.mp hb
  obtain ⟨-,rfl⟩ := put_iff.mp hsect
  rw [rangeBytes,append_assoc]

lemma foldlM_bitmapSetBit {ι : Type} {f : ι → Nat} {xs : List ι} {b b' : Bitmap}
    (h : xs.foldlM (fun b i => bitmapSetBit b (f i)) b = some b') :
    b'.value = xs.foldl (fun v i => v ||| 2 ^ f i) b.value ∧ ∀ i ∈ xs, f i ≤ bitmapMax := by
  induction xs generalizing b with
  | nil =>
    cases h
    exact ⟨rfl,nofun⟩
  | cons x xs ih =>
    rw [foldlM_cons,bind_eq_bind,bind_eq_some_iff] at h
    obtain ⟨b1,hb1,h⟩ := h
    have hset := bitmapSetBit_spec b (f x)
    split at hset
    · rename_i hle
      obtain ⟨b2,hb2,hvalue⟩ := hset
      rw [hb1,Option.some.injEq] at hb2
      subst hb2
      obtain ⟨hv,hbound⟩ := ih h
      refine ⟨by rw [hv,hvalue,foldl_cons],fun i hi => ?_⟩
      rcases List.mem_cons.mp hi with rfl | hi
      · exact hle
      · exact hbound i hi
    · rw [hb1] at hset
      cases hset

lemma fillSection_bitmap (hlo : g.bitmapStart ≤ rs.lo) (hnear : rs.hi - g.bitmapStart < 2 ^ 31)
    (h : fillSection .bitmap rs g = .ok r) : ∃ b, r = .inl { g with bitmap := b } ∧
      b.value = setBits g.bitmapStart g.bitmap.value (serials [rs]) ∧
      rs.hi - g.bitmapStart ≤ bitmapMax := by
  have hle := rs.le
  rw [fillSection] at h
  rw [if_neg (by omega)] at h
  split at h
  · cases h
  · rename_i b hb
    cases h
    obtain ⟨hv,hbound⟩ := foldlM_bitmapSetBit hb
    refine ⟨b,rfl,?_,?_⟩
    · rw [hv,setBits,serials_singleton,foldl_map]
      apply foldl_ext
      intro v i hi
      have hi' : i < contig rs := mem_range.mp hi
      rw [contig] at hi'
      rw [Nat.mod_eq_of_lt (by omega)]
    · have hend := hbound (rs.hi - rs.lo) (mem_range.mpr (by rw [contig]; omega))
      omega

def AtStart (kind : SerialSection) (rs : RevokedSerial) (g : Gen) : Prop :=
  match kind with
  | .list | .range => g.sect = []
  | .bitmap =>
    g.sect = encode 8 rs.lo ∧ g.bitmapStart = rs.lo ∧ g.bitmap.value = 0

lemma fillSection_new {kind : SerialSection} (hg : AtStart kind rs g)
    (hshort : kind = .bitmap → contig rs ≤ 208) (h : fillSection kind rs g = .ok r) :
    ∃ g', r = .inl g' ∧ HoldsGroup (.new kind rs) g' ∧ g'.buf = g.buf ∧ g'.state = g.state := by
  cases kind with
  | list =>
    refine ⟨_,fillSection_list h,?_,rfl,rfl⟩
    have hsect : g.sect = [] := hg
    rw [hsect]
    rfl
  | range =>
    refine ⟨_,fillSection_range h,?_,rfl,rfl⟩
    have hsect : g.sect = [] := hg
    change g.sect ++ _ = [rs].flatMap _
    rw [hsect,nil_append,flatMap_cons,flatMap_nil,append_nil]
  | bitmap =>
    obtain ⟨hsect,hstart,hvalue⟩ := hg
    have hlen := hshort rfl
    rw [contig] at hlen
    obtain ⟨b,hr,hb,hmax⟩ := fillSection_bitmap (by omega) (by omega) h
    refine ⟨_,hr,⟨hsect,hstart,?_,?_⟩,rfl,rfl⟩
    · change b.value = setBits rs.lo 0 (serials [rs])
      rw [hb,hstart,hvalue]
    · change rs.hi - rs.lo ≤ bitmapMax
      omega

lemma fillSection_add {s : Group} (hs : HoldsGroup s g) (hk : s.kind ≠ .range)
    (hcan : Canonical (s.ranges ++ [rs]))
    (hnear : s.kind = .bitmap → contig rs ≤ 208 ∧ rs.lo - s.last.hi ≤ 208)
    (h : fillSection s.kind rs g = .ok r) :
    ∃ g', r = .inl g' ∧ HoldsGroup (s.add rs hk) g' ∧ g'.buf = g.buf ∧ g'.state = g.state := by
  have hadd : (s.add rs hk).kind = s.kind := rfl
  rw [HoldsGroup] at hs
  unfold HoldsGroup
  rw [hadd]
  cases hkind : s.kind with
  | list =>
    rw [hkind] at hs h
    refine ⟨_,fillSection_list h,?_,rfl,rfl⟩
    have hsect : g.sect = (serials _).flatMap _ := hs
    change g.sect ++ _ = (serials (s.ranges ++ [rs])).flatMap _
    rw [hsect,serials_append,flatMap_append]
  | range => exact absurd hkind hk
  | bitmap =>
    rw [hkind] at hs h
    obtain ⟨hsect,hstart,hvalue,hmax⟩ := hs
    obtain ⟨hlen,hgap⟩ := hnear hkind
    rw [contig] at hlen
    -- the first serial of the bitmap lies below the range
    have hfirst : s.first.lo ≤ rs.lo := hcan.lo_le_of_mem (mem_lo (by simp))
    have hbit : bitmapMax = 2 ^ 24 := rfl
    obtain ⟨b,hr,hb,hmax'⟩ := fillSection_bitmap (by omega) (by omega) h
    refine ⟨_,hr,⟨hsect,hstart,?_,?_⟩,rfl,rfl⟩
    · change b.value = setBits _ 0 (serials (s.ranges ++ [rs]))
      rw [hb,hstart,hvalue,serials_append,setBits,setBits,foldl_append]
      rfl
    · rw [Group.last_add]
      change rs.hi - s.first.lo ≤ bitmapMax
      omega

/-- The buffer holds the closed groups and the variables the open one. -/
structure Sim (header : Bytes) (done : List Group) (cur : Option Group) (g : Gen) : Prop where
  state : g.state = cur.map (·.kind)
  last : ∀ s ∈ cur, g.last = s.last.hi
  buf : g.buf = header ++ (done.map Group.record).flatMap recordBytes
  holds : ∀ s ∈ cur, HoldsGroup s g

section

variable {header : Bytes} {done : List Group} {cur : Option Group} {g : Gen}

lemma Sim.nextState (h : Sim header done cur g) (rs : RevokedSerial) (rest : List RevokedSerial) :
    Krl.nextState g.state g.last rs rest =
      Krl.nextState (cur.map (·.kind)) (cur.elim 0 (·.last.hi)) rs rest := by
  rw [h.state]
  cases cur with
  | none => rfl
  | some s =>
    rw [h.last s rfl]
    rfl

variable {rs : RevokedSerial}

lemma startSection_ok {kind : SerialSection} {g' : Gen} (h : startSection kind rs g = .ok g') :
    AtStart kind rs g' ∧ g'.buf = g.buf ∧ g'.state = some kind := by
  cases kind with
  | list =>
    cases h
    exact ⟨rfl,rfl,rfl⟩
  | range =>
    cases h
    exact ⟨rfl,rfl,rfl⟩
  | bitmap =>
    obtain ⟨sect,hsect,h⟩ := bind_eq_ok.mp h
    cases h
    exact ⟨⟨(put_iff.mp hsect).2,rfl,rfl⟩,rfl,rfl⟩

lemma Sim.closed (h : Sim header done cur g) {choice : SerialSection × Bool} {g1 g2 : Gen}
    (hclose : Closes cur choice) (hfinish : finishOpen choice g = .ok g1)
    (hstart : startNew choice rs g1 = .ok g2) : AtStart choice.1 rs g2 ∧ g2.state = some choice.1 ∧
      g2.buf = header ++ ((done ++ cur.toList).map Group.record).flatMap recordBytes := by
  rw [finishOpen,h.state] at hfinish
  rw [startNew] at hstart
  cases cur with
  | none =>
    cases hfinish
    rw [h.state] at hstart
    obtain ⟨hat,hbuf,hstate⟩ := startSection_ok hstart
    refine ⟨hat,hstate,?_⟩
    rw [hbuf,h.buf,toList_none,append_nil]
  | some s =>
    have hc := hclose s rfl
    simp only [map_some] at hfinish
    rw [if_pos hc] at hfinish
    obtain rfl := finishSection_ok (h.holds s rfl) hfinish
    have hbuf : g.buf ++ recordBytes s.record =
        header ++ ((done ++ [s]).map Group.record).flatMap recordBytes := by
      rw [h.buf]
      simp
    split at hstart
    · obtain ⟨hat,hbuf',hstate⟩ := startSection_ok hstart
      exact ⟨hat,hstate,hbuf'.trans hbuf⟩
    · -- a range section behind a range section has nothing to prepare
      rename_i hsame
      cases hstart
      rw [not_or,not_not] at hsame
      have hstate : g.state = some _ := hsame.1.symm
      have hkind : choice.1 = s.kind := by
        rw [h.state] at hstate
        exact (Option.some.inj hstate).symm
      have hrange : choice.1 = .range := by
        rcases hc with hc | hc | hc
        · exact absurd hc hsame.2
        · exact absurd hkind hc
        · exact hkind.trans hc
      refine ⟨?_,hstate,hbuf⟩
      rw [hrange]
      rfl

lemma Sim.step (h : Sim header done cur g) {rest : List RevokedSerial}
    (hcan : Canonical (cur.elim [] Group.ranges ++ [rs])) {r : Gen ⊕ Bytes}
    (hstep : generateStep rs rest g = .ok r) : ∃ g', r = .inl g' ∧
      Sim header (done ++ (planStep cur rs rest).1) (some (planStep cur rs rest).2) g' := by
  obtain ⟨g1,hfinish,hstep⟩ := bind_eq_ok.mp hstep
  obtain ⟨g2,hstart,hstep⟩ := bind_eq_ok.mp hstep
  obtain ⟨filled,hfill,hstep⟩ := bind_eq_ok.mp hstep
  rw [h.nextState] at hfinish hstart hfill
  by_cases hclose : Closes cur
      (Krl.nextState (cur.map (·.kind)) (cur.elim 0 (·.last.hi)) rs rest)
  · obtain ⟨hat,hstate,hbuf⟩ := h.closed hclose hfinish hstart
    obtain ⟨g3,rfl,hholds,hbuf3,hstate3⟩ :=
      fillSection_new hat (fun hk => (nextState_bitmap hk).1) hfill
    cases hstep
    rw [planStep_closes hclose]
    refine ⟨_,rfl,hstate3.trans hstate,?_,hbuf3.trans hbuf,?_⟩
    · rintro s ⟨⟩
      rfl
    · rintro s ⟨⟩
      exact hholds
  · cases cur with
    | none => exact absurd nofun hclose
    | some s =>
      obtain ⟨hk,hplan,hnext⟩ := planStep_joins hclose
      have hbit : (Krl.nextState (some s.kind) s.last.hi rs rest).1 = .bitmap → _ :=
        nextState_bitmap
      simp only [map_some,elim_some,hnext] at hfinish hstart hfill hbit
      have hg1 : g1 = g := by
        rw [finishOpen,h.state] at hfinish
        simp only [map_some] at hfinish
        rw [if_neg (by simp [hk])] at hfinish
        exact (Except.ok.inj hfinish).symm
      subst hg1
      have hg2 : g2 = g1 := by
        rw [startNew,h.state,if_neg (by simp)] at hstart
        exact (Except.ok.inj hstart).symm
      subst hg2
      obtain ⟨g3,rfl,hholds,hbuf3,hstate3⟩ := fillSection_add (h.holds s rfl) hk hcan
        (fun hb => ⟨(hbit hb).1,(hbit hb).2 nofun trivial⟩) hfill
      cases hstep
      rw [hplan]
      refine ⟨_,rfl,hstate3.trans h.state,?_,?_,?_⟩
      · rintro t ⟨⟩
        rw [Group.last_add]
      · rw [append_nil]
        exact hbuf3.trans h.buf
      · rintro t ⟨⟩
        exact hholds

lemma Sim.run {l : List RevokedSerial} (h : Sim header done cur g)
    (hcan : Canonical (cur.elim [] Group.ranges ++ l)) {r : Gen ⊕ Bytes}
    (hrun : generateSerials l g = .ok r) : ∃ g' done' cur', r = .inl g' ∧ Sim header done' cur' g' ∧
      done' ++ cur'.toList = done ++ plan cur l := by
  induction l generalizing done cur g with
  | nil =>
    cases hrun
    exact ⟨g,done,cur,rfl,h,rfl⟩
  | cons rs rest ih =>
    rw [generateSerials] at hrun
    obtain ⟨res,hres,hrun⟩ := bind_eq_ok.mp hrun
    have hhead : Canonical (cur.elim [] Group.ranges ++ [rs]) := by
      refine List.Pairwise.sublist ?_ hcan
      exact List.Sublist.append_left (singleton_sublist.mpr mem_cons_self) _
    obtain ⟨g1,rfl,hsim⟩ := h.step hhead hres
    have hrest : Canonical ((some (planStep cur rs rest).2).elim [] Group.ranges ++ rest) := by
      have happ := planStep_ranges cur rs rest
      have hall : (planStep cur rs rest).1.flatMap Group.ranges ++
          (planStep cur rs rest).2.ranges ++ rest = cur.elim [] Group.ranges ++ rs :: rest := by
        rw [happ,append_assoc]
        rfl
      rw [← hall,append_assoc] at hcan
      exact (pairwise_append.mp hcan).2.1
    obtain ⟨g',done',cur',rfl,hsim',hplan⟩ := ih hsim hrest hrun
    refine ⟨g',done',cur',rfl,hsim',?_⟩
    rw [hplan,plan,append_assoc]

end

def SerialTree.groups (t : SerialTree) : List Group := plan none t.ranges

lemma generateSerials_ok {t : SerialTree} {header : Bytes}
    (hrun : generateSerials t.ranges ⟨none,0,0,bitmapNew,[],header⟩ = .ok r) :
    ∃ g, r = .inl g ∧ ∀ g', finishLast g = .ok g' →
      g'.buf = header ++ (t.groups.map Group.record).flatMap recordBytes := by
  have hinit : Sim header [] none ⟨none,0,0,bitmapNew,[],header⟩ := ⟨rfl,nofun,by simp,nofun⟩
  obtain ⟨g,done,cur,rfl,hsim,hplan⟩ := hinit.run t.canonical hrun
  refine ⟨g,rfl,fun g' hg' => ?_⟩
  rw [nil_append] at hplan
  rw [SerialTree.groups,← hplan]
  rw [finishLast,hsim.state] at hg'
  cases cur with
  | none =>
    cases hg'
    rw [hsim.buf,toList_none,append_nil]
  | some s =>
    obtain rfl := finishSection_ok (hsim.holds s rfl) hg'
    rw [hsim.buf]
    simp

def stringsRecord (type : UInt8) (strings : List Bytes) : List (UInt8 × Bytes) :=
  if strings = [] then [] else [(type,strings.flatMap framed)]

lemma putStringsSection_ok {type : UInt8} {strings : List Bytes} {r : Bytes}
    (h : putStringsSection type strings buf = .ok r) :
    r = buf ++ (stringsRecord type strings).flatMap recordBytes ∧
      (buf.length ≤ sshbufSizeMax → r.length ≤ sshbufSizeMax) := by
  obtain ⟨sect,hsect,h⟩ := bind_eq_ok.mp h
  have hnil : ([] : Bytes).length ≤ sshbufSizeMax := by decide
  obtain ⟨-,rfl⟩ := (foldlM_putString_iff hnil).mp hsect
  rw [stringsRecord]
  cases strings with
  | nil =>
    cases h
    simp
  | cons s strings =>
    rw [if_neg (cons_ne_nil _ _),flatMap_cons,flatMap_nil,append_nil]
    exact ⟨(putRecord_ok h).1,fun _ => (putRecord_ok h).2⟩

/-- The string that stands for the key of an entry. -/
def CaBlob (c : Codec) (ca : Option SshKey) (blob : Bytes) : Prop :=
  match ca with
  | none => blob = []
  | some k => toBlobBuf c k = .ok blob

def RevokedCerts.records (rc : RevokedCerts) : List (UInt8 × Bytes) :=
  rc.revokedSerials.groups.map Group.record ++
    stringsRecord certKeyId (rc.revokedKeyIds.keyIds.map Subtype.val)

lemma putCa_ok {ca : Option SshKey} {r : Bytes} (h : putCa c ca buf = .ok r) :
    ∃ blob, CaBlob c ca blob ∧ r = buf ++ framed blob := by
  cases ca with
  | none => exact ⟨[],rfl,(putString_iff.mp h).2⟩
  | some k =>
    obtain ⟨blob,hblob,h⟩ := bind_eq_ok.mp h
    exact ⟨blob,hblob,(putString_iff.mp h).2⟩

lemma revokedCertsGenerate_ok {rc : RevokedCerts} {sect : Bytes}
    (h : revokedCertsGenerate c rc [] = .ok sect) : ∃ blob, CaBlob c rc.caKey blob ∧
      sect = framed blob ++ (framed [] ++ rc.records.flatMap recordBytes) := by
  obtain ⟨b,hb,h⟩ := bind_eq_ok.mp h
  obtain ⟨blob,hblob,rfl⟩ := putCa_ok hb
  obtain ⟨b,hb,h⟩ := bind_eq_ok.mp h
  obtain ⟨hlen,rfl⟩ := putString_iff.mp hb
  obtain ⟨r,hr,h⟩ := bind_eq_ok.mp h
  obtain ⟨g,rfl,hfinish⟩ := generateSerials_ok hr
  obtain ⟨g',hg',h⟩ := bind_eq_ok.mp h
  refine ⟨blob,hblob,?_⟩
  rw [(putStringsSection_ok h).1,hfinish g' hg',RevokedCerts.records]
  simp only [nil_append,append_assoc,flatMap_append]

def SshKrl.blobRecords (krl : SshKrl) : List (UInt8 × Bytes) :=
  stringsRecord sectionExplicitKey krl.revokedKeys.blobs ++
    (stringsRecord sectionFingerprintSha1 krl.revokedSha1s.blobs ++
      stringsRecord sectionFingerprintSha256 krl.revokedSha256s.blobs)

def SshKrl.headerBytes (krl : SshKrl) : Bytes :=
  encode 4 krlFormatVersion ++ (encode 8 krl.krlVersion.toNat ++
    (encode 8 krl.generatedDate.toNat ++ (encode 8 krl.flags.toNat ++
      (framed [] ++ framed (krl.comment.elim [] Subtype.val)))))

lemma putHeader_ok {krl : SshKrl} {r : Bytes} (h : putHeader krl [] = .ok r) :
    r = krlMagic ++ krl.headerBytes ∧ r.length ≤ sshbufSizeMax := by
  obtain ⟨b6,h6,h⟩ := bind_eq_ok.mp h
  obtain ⟨b5,h5,h6⟩ := bind_eq_ok.mp h6
  obtain ⟨b4,h4,h5⟩ := bind_eq_ok.mp h5
  obtain ⟨b3,h3,h4⟩ := bind_eq_ok.mp h4
  obtain ⟨b2,h2,h3⟩ := bind_eq_ok.mp h3
  obtain ⟨b1,h1,h2⟩ := bind_eq_ok.mp h2
  obtain ⟨-,rfl⟩ := put_iff.mp h1
  obtain ⟨-,rfl⟩ := put_iff.mp h2
  obtain ⟨-,rfl⟩ := put_iff.mp h3
  obtain ⟨-,rfl⟩ := put_iff.mp h4
  obtain ⟨-,rfl⟩ := put_iff.mp h5
  obtain ⟨-,rfl⟩ := putString_iff.mp h6
  obtain ⟨hl,rfl⟩ := putString_iff.mp h
  refine ⟨?_,?_⟩
  · simp only [SshKrl.headerBytes,nil_append,append_assoc]
  · rw [length_append]
    exact hl

lemma foldlM_putCerts {rcs : List RevokedCerts} {r : Bytes}
    (h : rcs.foldlM (putCerts c) buf = .ok r) (hbuf : buf.length ≤ sshbufSizeMax) :
    ∃ sects, List.Forall₂ (fun rc sect => revokedCertsGenerate c rc [] = .ok sect) rcs sects ∧
      r = buf ++ (sects.map fun sect => (sectionCertificates,sect)).flatMap recordBytes ∧
      r.length ≤ sshbufSizeMax := by
  induction rcs generalizing buf with
  | nil =>
    cases h
    exact ⟨[],.nil,by simp,hbuf⟩
  | cons rc rcs ih =>
    obtain ⟨b,hb,h⟩ := bind_eq_ok.mp h
    obtain ⟨sect,hsect,hb⟩ := bind_eq_ok.mp hb
    obtain ⟨rfl,hlen⟩ := putRecord_ok hb
    obtain ⟨sects,hall,hr,hlen'⟩ := ih h hlen
    refine ⟨sect :: sects,.cons hsect hall,?_,hlen'⟩
    rw [hr,map_cons,flatMap_cons,append_assoc]

lemma sshKrlToBlob_ok {y : Crypto} {now : UInt64} {krl : SshKrl} {b : Bytes}
    (h : sshKrlToBlob c y now krl [] = .ok b) :
    ∃ sects, List.Forall₂ (fun rc sect => revokedCertsGenerate c rc [] = .ok sect)
        krl.revokedCerts sects ∧ b = krlMagic ++ (krl.dated now).headerBytes ++
        ((sects.map fun sect => (sectionCertificates,sect)) ++ krl.blobRecords).flatMap
          recordBytes ∧ b.length ≤ sshbufSizeMax := by
  obtain ⟨b1,h1,h⟩ := bind_eq_ok.mp h
  obtain ⟨rfl,hl1⟩ := putHeader_ok h1
  obtain ⟨b2,h2,h⟩ := bind_eq_ok.mp h
  obtain ⟨sects,hall,rfl,hl2⟩ := foldlM_putCerts h2 hl1
  obtain ⟨b3,h3,h⟩ := bind_eq_ok.mp h
  obtain ⟨b4,h4,h⟩ := bind_eq_ok.mp h
  obtain ⟨b5,h5,h⟩ := bind_eq_ok.mp h
  cases h
  obtain ⟨rfl,hl3⟩ := putStringsSection_ok h3
  obtain ⟨rfl,hl4⟩ := putStringsSection_ok h4
  obtain ⟨rfl,hl5⟩ := putStringsSection_ok h5
  refine ⟨sects,hall,?_,hl5 (hl4 (hl3 hl2))⟩
  simp only [SshKrl.blobRecords,flatMap_append,append_assoc]

end PkixSsh.Krl
