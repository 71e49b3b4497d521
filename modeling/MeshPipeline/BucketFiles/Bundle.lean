import MeshPipeline.Library.Crc

/-!
# Packed files and the bundle

A big file goes to the bucket packed: raw DEFLATE pieces of its tar data. The bundle of a delivery
is one gzip member of a tar whose packed members pass through as they are stored; its check is put
together from the checks of its parts. Compression, the store's digest and the headers of tar are
given.
-/

namespace MeshPipeline.BucketFiles

abbrev Bytes := List (BitVec 8)

def blockSize : ℕ := 512
def recordSize : ℕ := 20 * blockSize

/-- `_padding`. -/
def padding (n : ℕ) : Bytes :=
  let rem := n % blockSize
  if rem = 0 then [] else List.replicate (blockSize - rem) 0

/-! ## The check of joined parts -/

def crcPolynomial : BitVec 32 := 0xEDB88320

/-- `zlib.crc32`. -/
def crc32 (data : Bytes) (value : BitVec 32) : BitVec 32 := Crc.check crcPolynomial value data

lemma crc32_nil (value : BitVec 32) : crc32 [] value = value := by
  simp [crc32, Crc.check, Crc.register]

/-- `_gf2_times`. What is left of the columns when the vector has no bit left adds nothing. -/
def gf2Times : List (BitVec 32) → BitVec 32 → BitVec 32 := Crc.apply

/-- `_gf2_square`. -/
def gf2Square (mat : List (BitVec 32)) : List (BitVec 32) := mat.map (gf2Times mat)

/-- The matrix of one zero bit. -/
def oneBit : List (BitVec 32) :=
  crcPolynomial :: (List.range' 1 31).map fun n => BitVec.twoPow 32 (n - 1)

/-- The loop of `crc32_combine`, from the matrix of half a byte on. -/
def combineLoop (odd : List (BitVec 32)) (crc₁ : BitVec 32) (len₂ : ℕ) : BitVec 32 :=
  let even := gf2Square odd
  let crc₁ := if len₂ % 2 = 1 then gf2Times even crc₁ else crc₁
  if len₂ / 2 = 0 then crc₁
  else
    let odd := gf2Square even
    let crc₁ := if len₂ / 2 % 2 = 1 then gf2Times odd crc₁ else crc₁
    if len₂ / 2 / 2 = 0 then crc₁ else combineLoop odd crc₁ (len₂ / 2 / 2)
termination_by len₂
decreasing_by omega

/-- `crc32_combine`. -/
def crc32Combine (crc₁ crc₂ : BitVec 32) (len₂ : ℕ) : BitVec 32 :=
  if len₂ = 0 then crc₁
  else combineLoop (gf2Square (gf2Square oneBit)) crc₁ len₂ ^^^ crc₂

lemma oneBit_eq : oneBit = Crc.columnsOf (Crc.shift crcPolynomial) := by
  decide +kernel

lemma gf2Square_columnsOf {f : BitVec 32 → BitVec 32} (hf : Crc.Linear f) :
    gf2Square (Crc.columnsOf f) = Crc.columnsOf (f ∘ f) :=
  Crc.map_apply_columnsOf hf

/-- The loop takes a map of half a byte twice as often as there are bytes. -/
lemma combineLoop_eq {f : BitVec 32 → BitVec 32} (hf : Crc.Linear f) (crc₁ : BitVec 32) (len₂ : ℕ) :
    combineLoop (Crc.columnsOf f) crc₁ len₂ = f^[2 * len₂] crc₁ := by
  induction len₂ using Nat.strong_induction_on generalizing f crc₁ with
  | _ len₂ ih =>
    have hff : Crc.Linear (f ∘ f) := hf.comp hf
    -- one bit of the length: the map doubled, when the bit is set
    have hbit : ∀ (g : BitVec 32 → BitVec 32) (n : ℕ) (c : BitVec 32),
        g^[n] c = g^[2 * (n / 2)] (if n % 2 = 1 then g c else c) := by
      intro g n c
      obtain h | h := Nat.mod_two_eq_zero_or_one n
      · rw [if_neg (by omega)]
        congr 1
        omega
      · rw [if_pos h, ← Function.iterate_succ_apply]
        congr 1
        omega
    have htwice : ∀ (g : BitVec 32 → BitVec 32) (n : ℕ), g^[2 * n] = (g ∘ g)^[n] := by
      intro g n
      rw [Function.iterate_mul]
      rfl
    rw [combineLoop, gf2Square_columnsOf hf, htwice f, hbit, htwice]
    simp only [gf2Times, Crc.apply_columnsOf hff, gf2Square_columnsOf hff,
      Crc.apply_columnsOf (hff.comp hff)]
    split
    · next hzero => rw [hzero, Function.iterate_zero_apply]
    · next hpos =>
      rw [hbit]
      split
      · next hzero => rw [hzero, Function.iterate_zero_apply]
      · rw [ih _ (by omega) (hff.comp hff)]

/-- The check of two parts put together is the check of the parts joined. -/
lemma crc32Combine_eq (a b : Bytes) (value : BitVec 32) :
    crc32Combine (crc32 a value) (crc32 b 0) b.length = crc32 (a ++ b) value := by
  have hshift := Crc.linear_shift crcPolynomial
  have hfour : gf2Square (gf2Square oneBit) = Crc.columnsOf (Crc.shift crcPolynomial)^[4] := by
    rw [oneBit_eq, gf2Square_columnsOf hshift, gf2Square_columnsOf (hshift.comp hshift)]
    rfl
  unfold crc32Combine
  split
  · next hb =>
    rw [List.length_eq_zero_iff.mp hb, List.append_nil]
  · rw [hfour, combineLoop_eq (hshift.iterate 4), ← Function.iterate_mul, ← Nat.mul_assoc]
    exact (Crc.check_append_eq crcPolynomial value a b).symm

/-! ## Packing -/

/-- What is given from outside: a compressor fed with chunks and flushed, so that its pieces can be
joined; the one that ends a stream; the stream read back, to its end or as far as it goes; and the
digest that the store keeps. -/
structure Outside where
  deflate : List Bytes → Bytes
  finish : Bytes → Bytes
  inflate : Bytes → Option Bytes
  decompress : Bytes → Option Bytes
  md5 : Bytes → String

/-- Flushed pieces join. -/
structure Outside.Lawful (O : Outside) : Prop where
  inflate_joined : ∀ (pieces : List (List Bytes)) (last : Bytes),
    O.inflate ((pieces.map O.deflate).flatten ++ O.finish last) =
      some ((pieces.map List.flatten).flatten ++ last)
  decompress_joined : ∀ pieces : List (List Bytes),
    O.decompress (pieces.map O.deflate).flatten = some (pieces.map List.flatten).flatten

/-- `PACK_PIECE_BYTES`. -/
def packPieceBytes : ℕ := 64 * 1024 * 1024

/-- The reads of a file, `n` bytes at a time. -/
def reads (n : ℕ) (data : Bytes) : List Bytes :=
  if n = 0 ∨ data = [] then [] else data.take n :: reads n (data.drop n)
termination_by data.length
decreasing_by
  rename_i h
  have := List.length_pos_iff.mpr fun hnil => h (.inr hnil)
  rw [List.length_drop]
  omega

/-- A row of the record. -/
structure Kept where
  rel : String
  bucket : String
  key : String
  bytes : ℕ
  gzBytes : ℕ
  gzMd5 : String
  mode : ℕ
  fetch : Bool
  crc32 : BitVec 32

structure Packed where
  bytes : ℕ
  object : Bytes
  gzMd5 : String
  crc32 : BitVec 32

/-- The loop of `pack`: the chunk that reaches the size carries the padding. The pieces are
compressed side by side and written in order. -/
def packLoop (O : Outside) (size : ℕ) : List Bytes → ℕ → BitVec 32 → Bytes → ℕ × BitVec 32 × Bytes
  | [], raw, crc, object => (raw, crc, object)
  | chunk :: chunks, raw, crc, object =>
    let raw := raw + chunk.length
    let chunk := if size ≤ raw then chunk ++ padding raw else chunk
    packLoop O size chunks raw (BucketFiles.crc32 chunk crc) (object ++ O.deflate [chunk])

/-- `pack`; a file that is not as long as it was said to be has changed. -/
def pack (O : Outside) (pieceBytes size : ℕ) (data : Bytes) : Option Packed :=
  let (raw, crc, object) := packLoop O size (reads pieceBytes data) 0 0 []
  if raw ≠ size then none
  else
    let object := if raw = 0 then object ++ O.deflate [[]] else object
    some ⟨raw, object, O.md5 object, crc⟩

inductive KeptFileError
  | longer
  | short (left : ℕ)
  | mismatch

/-- The loop of `raw_chunks`, over what is decompressed of the object. -/
def rawLoop : List Bytes → ℕ → Except KeptFileError Bytes
  | [], left => if left = 0 then .ok [] else .error (.short left)
  | out :: rest, left =>
    if left = 0 then
      if out.all (· == 0) then rawLoop rest 0 else .error .longer
    else (rawLoop rest (left - (out.take left).length)).map (out.take left ++ ·)

/-- An object is flushed pieces of that data. -/
def Packs (O : Outside) (object data : Bytes) : Prop :=
  ∃ pieces : List (List Bytes), object = (pieces.map O.deflate).flatten ∧
    (pieces.map List.flatten).flatten = data

lemma Packs.append {O : Outside} {object data : Bytes} (h : Packs O object data)
    (chunks : List Bytes) : Packs O (object ++ O.deflate chunks) (data ++ chunks.flatten) := by
  obtain ⟨pieces, rfl, rfl⟩ := h
  exact ⟨pieces ++ [chunks], by simp, by simp⟩

lemma reads_flatten {n : ℕ} (hn : n ≠ 0) (data : Bytes) : (reads n data).flatten = data := by
  fun_induction reads n data with
  | case1 data h => simp [h.resolve_left hn]
  | case2 data h ih => rw [List.flatten_cons, ih, List.take_append_drop]

lemma ne_nil_of_mem_reads {n : ℕ} {data chunk : Bytes} (h : chunk ∈ reads n data) :
    chunk ≠ [] := by
  fun_induction reads n data with
  | case1 => cases h
  | case2 data hmore ih =>
    obtain rfl | h := List.mem_cons.mp h
    · simpa [List.take_eq_nil_iff] using hmore
    · exact ih h

lemma padding_zero : padding 0 = [] := rfl

lemma mem_padding {n : ℕ} {b : BitVec 8} (h : b ∈ padding n) : b = 0 := by
  unfold padding at h
  dsimp only at h
  split at h
  · cases h
  · exact List.eq_of_mem_replicate h

lemma packLoop_raw (O : Outside) (size : ℕ) (chunks : List Bytes) (raw : ℕ) (crc : BitVec 32)
    (object : Bytes) :
    (packLoop O size chunks raw crc object).1 = raw + chunks.flatten.length := by
  induction chunks generalizing raw crc object with
  | nil => rfl
  | cons chunk chunks ih =>
    rw [packLoop, ih, List.flatten_cons, List.length_append, Nat.add_assoc]

/-- Over all the chunks of a file, the padding is laid on the last one. -/
lemma packLoop_spec {O : Outside} {chunks : List Bytes} (hne : ∀ c ∈ chunks, c ≠ []) {raw : ℕ}
    {crc : BitVec 32} {object data : Bytes} (hpacks : Packs O object data)
    (hcrc : crc = crc32 data 0) (hdone : chunks = [] → padding (raw + chunks.flatten.length) = []) :
    let r := packLoop O (raw + chunks.flatten.length) chunks raw crc object
    let tar := data ++ chunks.flatten ++ padding (raw + chunks.flatten.length)
    r.2.1 = crc32 tar 0 ∧ Packs O r.2.2 tar := by
  induction chunks generalizing raw crc object data with
  | nil =>
    have hpad : padding raw = [] := hdone rfl
    simpa [packLoop, hpad] using ⟨hcrc, hpacks⟩
  | cons chunk chunks ih =>
    have hsize : raw + (chunk :: chunks).flatten.length =
        raw + chunk.length + chunks.flatten.length := by
      rw [List.flatten_cons, List.length_append, Nat.add_assoc]
    rw [hsize]
    dsimp only [packLoop]
    by_cases hlast : chunks = []
    · subst hlast
      have hcheck : crc32 (chunk ++ padding (raw + chunk.length)) crc =
          crc32 (data ++ chunk ++ padding (raw + chunk.length)) 0 := by
        rw [hcrc, List.append_assoc]
        exact (Crc.check_append _ _ _ _).symm
      have hobject := hpacks.append [chunk ++ padding (raw + chunk.length)]
      simpa [packLoop, hcheck] using hobject
    · have hmore : ¬ raw + chunk.length + chunks.flatten.length ≤ raw + chunk.length := by
        obtain ⟨c, hc⟩ := List.exists_mem_of_ne_nil chunks hlast
        have hpos := List.length_pos_iff.mpr (hne c (List.mem_cons_of_mem _ hc))
        have hle := (List.sublist_flatten_of_mem hc).length_le
        omega
      rw [if_neg hmore]
      have hcheck : crc32 chunk crc = crc32 (data ++ chunk) 0 := by
        rw [hcrc]
        exact (Crc.check_append _ _ _ _).symm
      have hobject : Packs O (object ++ O.deflate [chunk]) (data ++ chunk) := by
        simpa using hpacks.append [chunk]
      have hdone : chunks = [] → padding (raw + chunk.length + chunks.flatten.length) = [] :=
        fun hnil => absurd hnil hlast
      have h := ih (fun c hc => hne c (List.mem_cons_of_mem _ hc)) hobject hcheck hdone
      simpa [List.append_assoc] using h

/-- A packed file is there under the check and the size of its tar data. -/
lemma pack_spec {O : Outside} {n size : ℕ} (hn : n ≠ 0) {data : Bytes} {p : Packed}
    (h : pack O n size data = some p) :
    p.bytes = data.length ∧ p.gzMd5 = O.md5 p.object ∧
      p.crc32 = crc32 (data ++ padding data.length) 0 ∧
      Packs O p.object (data ++ padding data.length) := by
  have hraw := packLoop_raw O size (reads n data) 0 0 []
  have hnone : Packs O [] [] := ⟨[], rfl, rfl⟩
  have hdone : reads n data = [] → padding (0 + (reads n data).flatten.length) = [] := by
    intro hnil
    rw [hnil]
    rfl
  have hspec := packLoop_spec (fun _ => ne_nil_of_mem_reads) hnone (crc32_nil 0).symm hdone
  simp only [reads_flatten hn, Nat.zero_add, List.nil_append] at hraw hspec
  unfold pack at h
  dsimp only at h
  split at h
  · cases h
  · next hsize =>
    rw [hraw, not_not] at hsize
    subst hsize
    cases h
    refine ⟨hraw, rfl, hspec.1, ?_⟩
    dsimp only
    split
    · have hempty := hspec.2.append [[]]
      simpa using hempty
    · exact hspec.2

/-- A file is packed exactly when it is as long as it was said to be. -/
lemma isSome_pack {O : Outside} {n size : ℕ} (hn : n ≠ 0) {data : Bytes} :
    (pack O n size data).isSome ↔ data.length = size := by
  have hraw := packLoop_raw O size (reads n data) 0 0 []
  simp only [reads_flatten hn, Nat.zero_add] at hraw
  unfold pack
  dsimp only
  rw [hraw]
  split <;> simp_all

/-- What a stored object gives as a file are its first bytes, as many as the record says. -/
lemma rawLoop_ok {outs : List Bytes} {left : ℕ} {data : Bytes} (h : rawLoop outs left = .ok data) :
    data = outs.flatten.take left ∧ data.length = left := by
  fun_induction rawLoop outs left generalizing data with
  | case1 => cases h; simp
  | case2 => cases h
  | case3 out rest hzeros ih => simpa using ih h
  | case4 => cases h
  | case5 out rest left hleft ih =>
    obtain ⟨data', hdata, rfl⟩ : ∃ d, rawLoop rest (left - (out.take left).length) = .ok d ∧
        out.take left ++ d = data := by
      cases hr : rawLoop rest (left - (out.take left).length) with
      | error => rw [hr] at h; cases h
      | ok d =>
        rw [hr] at h
        cases h
        exact ⟨d, rfl, rfl⟩
    obtain ⟨htake, hlen⟩ := ih hdata
    rw [List.length_take] at htake hlen
    constructor
    · rw [htake, List.flatten_cons, List.take_append]
      congr 2
      omega
    · rw [List.length_append, hlen, List.length_take]
      omega

/-- The file's bytes are given when what follows them is zero. -/
lemma rawLoop_of_padded {outs : List Bytes} {data pad : Bytes} (h : outs.flatten = data ++ pad)
    (hpad : ∀ b ∈ pad, b = 0) : rawLoop outs data.length = .ok data := by
  induction outs generalizing data pad with
  | nil =>
    obtain rfl : data = [] := (List.append_eq_nil_iff.mp h.symm).1
    rfl
  | cons out rest ih =>
    rw [List.flatten_cons, List.append_eq_append_iff] at h
    rw [rawLoop]
    obtain ⟨data', rfl, hrest⟩ | ⟨pad', rfl, rfl⟩ := h
    · have hdata := ih hrest hpad
      split
      · next hnil =>
        obtain ⟨rfl, rfl⟩ := List.append_eq_nil_iff.mp (List.length_eq_zero_iff.mp hnil)
        exact hdata
      · rw [List.take_of_length_le (by simp), List.length_append, Nat.add_sub_cancel_left, hdata]
        rfl
    · have hzero : ∀ b ∈ rest.flatten, b = 0 := fun b hb => hpad b (List.mem_append_right _ hb)
      have hrest : rawLoop rest 0 = .ok [] := ih (List.nil_append _).symm hzero
      split
      · next hnil =>
        obtain rfl := List.length_eq_zero_iff.mp hnil
        have hzeros : (([] : Bytes) ++ pad').all (· == 0) = true := by
          rw [List.all_eq_true]
          exact fun b hb => beq_iff_eq.mpr (hpad b (List.mem_append_left _ hb))
        rw [if_pos hzeros, hrest]
      · rw [List.take_left, Nat.sub_self, hrest]
        exact congrArg Except.ok (List.append_nil data)

/-- `packed_chunks`. -/
def packedChunks (O : Outside) (k : Kept) (object : Bytes) : Except KeptFileError Bytes :=
  if object.length ≠ k.gzBytes ∨ O.md5 object ≠ k.gzMd5 then .error .mismatch else .ok object

/-! ## The bundle -/

inductive TarType
  | regular | directory | symlink
  deriving DecidableEq

/-- What a header of tar shows, its times and owners cleared. -/
structure TarInfo where
  name : String
  size : ℕ
  mode : ℕ
  type : TarType
  linkname : String := ""

/-- An entry of the bundle: a kept file, a file that is here with its reads, or what has a header
alone. -/
inductive Entry
  | kept (name : String) (k : Kept)
  | file (name : String) (mode : ℕ) (chunks : List Bytes)
  | bare (info : TarInfo)

def keptInfo (name : String) (k : Kept) : TarInfo := ⟨name, k.bytes, k.mode, .regular, ""⟩

def fileInfo (name : String) (mode : ℕ) (chunks : List Bytes) : TarInfo :=
  ⟨name, chunks.flatten.length, mode, .regular, ""⟩

/-- What has been streamed: the bytes of the tar, their check, and the bytes sent. -/
structure Streamed where
  written : ℕ
  crc : BitVec 32
  sent : Bytes

/-- `local`: compressed here, as a piece of its own. -/
def Streamed.append (O : Outside) (s : Streamed) (chunks : List Bytes) : Streamed :=
  ⟨s.written + chunks.flatten.length, chunks.foldl (fun crc c => BucketFiles.crc32 c crc) s.crc,
    s.sent ++ O.deflate chunks⟩

/-- One entry of `bundle_chunks`. -/
def bundleEntry (O : Outside) (header : TarInfo → Bytes) (opener : String → String → Bytes)
    (s : Streamed) : Entry → Except KeptFileError Streamed
  | .kept name k => do
    let s := s.append O [header (keptInfo name k)]
    let object ← packedChunks O k (opener k.bucket k.key)
    let span := k.bytes + (padding k.bytes).length
    return ⟨s.written + span, crc32Combine s.crc k.crc32 span, s.sent ++ object⟩
  | .file name mode chunks =>
    let s := s.append O [header (fileInfo name mode chunks)]
    .ok (s.append O (chunks ++ [padding chunks.flatten.length]))
  | .bare info => .ok (s.append O [header info])

/-- The end of a tar of that many bytes. -/
def tarEnd (written : ℕ) : Bytes :=
  let rem := (written + 2 * blockSize) % recordSize
  List.replicate (2 * blockSize) 0 ++ if rem = 0 then [] else List.replicate (recordSize - rem) 0

def gzipHeader : Bytes := [0x1f, 0x8b, 0x08, 0, 0, 0, 0, 0, 0, 0xff]

/-- Four bytes, the lowest first. -/
def word (x : BitVec 32) : Bytes := (List.range 4).map fun i => x.extractLsb' (8 * i) 8

/-- `bundle_chunks`, joined. -/
def bundleChunks (O : Outside) (header : TarInfo → Bytes) (opener : String → String → Bytes)
    (entries : List Entry) : Except KeptFileError Bytes := do
  let s ← entries.foldlM (bundleEntry O header opener) ⟨0, 0, gzipHeader⟩
  let finish := tarEnd s.written
  return s.sent ++ O.finish finish ++ word (BucketFiles.crc32 finish s.crc) ++
    word (BitVec.ofNat 32 (s.written + finish.length))

/-! ## The plain bundle -/

variable {O : Outside} {header : TarInfo → Bytes} {opener : String → String → Bytes}

/-- A kept object is as `pack` wrote it of those bytes, under its row. -/
def IsPacked (O : Outside) (opener : String → String → Bytes) (k : Kept) (data : Bytes) : Prop :=
  ∃ (pieceBytes size : ℕ) (p : Packed), pieceBytes ≠ 0 ∧ pack O pieceBytes size data = some p ∧
    opener k.bucket k.key = p.object ∧ k.bytes = p.bytes ∧ k.gzBytes = p.object.length ∧
    k.gzMd5 = p.gzMd5 ∧ k.crc32 = p.crc32

/-- An entry in a tar. -/
def entryTar (header : TarInfo → Bytes) (contents : Kept → Bytes) : Entry → Bytes
  | .kept name k => header (keptInfo name k) ++ (contents k ++ padding (contents k).length)
  | .file name mode chunks =>
    header (fileInfo name mode chunks) ++ (chunks.flatten ++ padding chunks.flatten.length)
  | .bare info => header info

/-- The tar of the entries, with every file in it. -/
def plainTar (header : TarInfo → Bytes) (contents : Kept → Bytes) (entries : List Entry) : Bytes :=
  let tar := entries.flatMap (entryTar header contents)
  tar ++ tarEnd tar.length

/-- A gzip member read back: its stream, under the check and the size behind it. -/
def gunzip (O : Outside) (stream : Bytes) : Option Bytes :=
  if stream.take 10 = gzipHeader then
    (O.inflate ((stream.drop 10).take (stream.length - 18))).filter fun data =>
      stream.drop (stream.length - 8) = word (crc32 data 0) ++ word (BitVec.ofNat 32 data.length)
  else none

/-- What was streamed is a tar so far. -/
structure Streams (O : Outside) (tar : Bytes) (s : Streamed) : Prop where
  written : s.written = tar.length
  crc : s.crc = crc32 tar 0
  sent : ∃ object, s.sent = gzipHeader ++ object ∧ Packs O object tar

lemma foldl_crc32 (chunks : List Bytes) (value : BitVec 32) :
    chunks.foldl (fun crc c => crc32 c crc) value = crc32 chunks.flatten value := by
  induction chunks generalizing value with
  | nil => exact (crc32_nil value).symm
  | cons c chunks ih =>
    rw [List.foldl_cons, ih, List.flatten_cons]
    exact (Crc.check_append _ _ _ _).symm

lemma Streams.append {tar : Bytes} {s : Streamed} (h : Streams O tar s) (chunks : List Bytes) :
    Streams O (tar ++ chunks.flatten) (s.append O chunks) where
  written := by simp [Streamed.append, h.written]
  crc := by
    rw [Streamed.append, foldl_crc32, h.crc]
    exact (Crc.check_append _ _ _ _).symm
  sent := by
    obtain ⟨object, hsent, hpacks⟩ := h.sent
    exact ⟨object ++ O.deflate chunks, by simp [Streamed.append, hsent], hpacks.append chunks⟩

lemma Packs.joined {object object' data data' : Bytes} (h : Packs O object data)
    (h' : Packs O object' data') : Packs O (object ++ object') (data ++ data') := by
  obtain ⟨pieces, rfl, rfl⟩ := h
  obtain ⟨pieces', rfl, rfl⟩ := h'
  exact ⟨pieces ++ pieces', by simp, by simp⟩

/-- One entry more in the tar. -/
lemma streams_bundleEntry {tar : Bytes} {s : Streamed} (h : Streams O tar s)
    {contents : Kept → Bytes} {e : Entry}
    (hkept : ∀ name k, e = .kept name k → IsPacked O opener k (contents k)) :
    ∃ s', bundleEntry O header opener s e = .ok s' ∧
      Streams O (tar ++ entryTar header contents e) s' := by
  cases e with
  | bare info =>
    refine ⟨_, rfl, ?_⟩
    simpa [entryTar] using h.append [header info]
  | file name mode chunks =>
    refine ⟨_, rfl, ?_⟩
    have hheader := h.append [header (fileInfo name mode chunks)]
    simpa [entryTar] using hheader.append (chunks ++ [padding chunks.flatten.length])
  | kept name k =>
    obtain ⟨n, size, p, hn, hp, hopen, hbytes, hgz, hmd5, hcrc⟩ := hkept name k rfl
    obtain ⟨hlen, hdigest, hcheck, hpacks⟩ := pack_spec hn hp
    have hobject : packedChunks O k (opener k.bucket k.key) = .ok p.object := by
      rw [packedChunks, hopen, if_neg]
      simp [hgz, hmd5, hdigest]
    have hheader := h.append [header (keptInfo name k)]
    obtain ⟨object, hsent, hbefore⟩ := hheader.sent
    refine ⟨_, by simp only [bundleEntry, hobject]; rfl, ?_, ?_, ?_⟩
    · simp [hheader.written, entryTar, hbytes, hlen, Nat.add_assoc]
    · have hspan : k.bytes + (padding k.bytes).length =
          (contents k ++ padding (contents k).length).length := by
        rw [hbytes, hlen, List.length_append]
      dsimp only
      rw [hspan, hcrc, hcheck, hheader.crc, crc32Combine_eq]
      simp [entryTar]
    · refine ⟨object ++ p.object, by simp [hsent], ?_⟩
      simpa [entryTar] using hbefore.joined hpacks

lemma streams_entries {contents : Kept → Bytes} (entries : List Entry)
    (hkept : ∀ name k, Entry.kept name k ∈ entries → IsPacked O opener k (contents k)) {tar : Bytes}
    {s : Streamed} (h : Streams O tar s) :
    ∃ s', entries.foldlM (bundleEntry O header opener) s = .ok s' ∧
      Streams O (tar ++ entries.flatMap (entryTar header contents)) s' := by
  induction entries generalizing tar s with
  | nil => exact ⟨s, rfl, by simpa using h⟩
  | cons e entries ih =>
    have hentry : ∀ name k, e = .kept name k → IsPacked O opener k (contents k) :=
      fun name k he => hkept name k (he ▸ List.mem_cons_self)
    obtain ⟨s₁, hs₁, h₁⟩ := streams_bundleEntry (O := O) h hentry
    obtain ⟨s₂, hs₂, h₂⟩ := ih (fun name k hk => hkept name k (List.mem_cons_of_mem _ hk)) h₁
    refine ⟨s₂, ?_, by simpa using h₂⟩
    rw [List.foldlM_cons, hs₁]
    exact hs₂

lemma length_word (x : BitVec 32) : (word x).length = 4 := by
  simp [word]

lemma length_plainTar (header : TarInfo → Bytes) (contents : Kept → Bytes) (entries : List Entry) :
    (plainTar header contents entries).length % recordSize = 0 := by
  unfold plainTar tarEnd
  dsimp only
  rw [List.length_append, List.length_append, List.length_replicate]
  generalize (List.flatMap (entryTar header contents) entries).length = n
  have hlt := Nat.mod_lt (n + 2 * blockSize) (show 0 < recordSize by decide)
  split
  · next h => simpa [Nat.add_assoc] using h
  · rw [List.length_replicate, ← Nat.add_assoc, ← Nat.mod_add_mod,
      Nat.add_sub_cancel' (Nat.le_of_lt hlt), Nat.mod_self]

/-- A stream of this shape is one gzip member. -/
lemma gunzip_member (hO : O.Lawful) {object tar last : Bytes} (h : Packs O object tar) :
    gunzip O (gzipHeader ++ object ++ O.finish last ++ word (crc32 (tar ++ last) 0) ++
      word (BitVec.ofNat 32 (tar ++ last).length)) = some (tar ++ last) := by
  generalize hcheck : word (crc32 (tar ++ last) 0) = check
  generalize hsize : word (BitVec.ofNat 32 (tar ++ last).length) = size
  have hten : gzipHeader.length = 10 := rfl
  have hfour : check.length = 4 := hcheck ▸ length_word _
  have hfour' : size.length = 4 := hsize ▸ length_word _
  generalize hbody : object ++ O.finish last = body
  have hstream : gzipHeader ++ object ++ O.finish last ++ check ++ size =
      gzipHeader ++ (body ++ (check ++ size)) := by
    simp [← hbody]
  have hinflate : O.inflate body = some (tar ++ last) := by
    obtain ⟨pieces, rfl, rfl⟩ := h
    rw [← hbody, hO.inflate_joined]
  have hlength : (gzipHeader ++ (body ++ (check ++ size))).length = body.length + 18 := by
    simp only [List.length_append]
    omega
  have htake : (gzipHeader ++ (body ++ (check ++ size))).take 10 = gzipHeader :=
    List.take_left' hten
  have hdrop : (gzipHeader ++ (body ++ (check ++ size))).drop 10 = body ++ (check ++ size) :=
    List.drop_left' hten
  have htrailer : (gzipHeader ++ (body ++ (check ++ size))).drop (body.length + 18 - 8) =
      check ++ size := by
    rw [← List.append_assoc]
    apply List.drop_left'
    simp only [List.length_append]
    omega
  unfold gunzip
  rw [hstream, htake, if_pos rfl, hdrop, hlength, htrailer, Nat.add_sub_cancel,
    List.take_left' rfl, hinflate]
  simp only [Option.filter_some, hcheck, hsize, decide_true, if_true]

/-- Whatever is kept in the bucket and whatever is here, the bundle is a gzip member of the plain
tar, in whole records. -/
theorem bundle_is_plain (hO : O.Lawful) (header : TarInfo → Bytes)
    (opener : String → String → Bytes) (contents : Kept → Bytes) (entries : List Entry)
    (hkept : ∀ name k, Entry.kept name k ∈ entries → IsPacked O opener k (contents k)) :
    ∃ stream, bundleChunks O header opener entries = .ok stream ∧
      gunzip O stream = some (plainTar header contents entries) ∧
      (plainTar header contents entries).length % recordSize = 0 := by
  have hstart : Streams O [] ⟨0, 0, gzipHeader⟩ := ⟨rfl, rfl, [], rfl, [], rfl, rfl⟩
  obtain ⟨s, hs, h⟩ := streams_entries entries hkept hstart
  rw [List.nil_append] at h
  obtain ⟨object, hsent, hpacks⟩ := h.sent
  refine ⟨_, by rw [bundleChunks, hs]; rfl, ?_, length_plainTar header contents entries⟩
  have hcheck : crc32 (tarEnd s.written) s.crc =
      crc32 (entries.flatMap (entryTar header contents) ++ tarEnd s.written) 0 := by
    rw [h.crc]
    exact (Crc.check_append _ _ _ _).symm
  rw [hsent, hcheck, h.written, ← List.length_append]
  exact gunzip_member hO hpacks

/-! Stored blocks are the plainest compression: one byte a block here, and an empty block for a
flush. -/

def storedBlocks (data : Bytes) : Bytes := data.flatMap ([0, 1, 0, 0xfe, 0xff, ·])

/-- Stored blocks read back, up to the final block or up to the end. -/
def readStored (final : Bool) : Bytes → Option Bytes
  | kind :: l₁ :: l₂ :: n₁ :: n₂ :: rest =>
    if [l₁, l₂, n₁, n₂] = [0, 0, 0xff, 0xff] then
      if kind = 1 then if final ∧ rest = [] then some [] else none else readStored final rest
    else
      match rest with
      | byte :: rest => (readStored final rest).map (byte :: ·)
      | [] => none
  | rest => if final = false ∧ rest = [] then some [] else none

/-- One object of one digest is in the store. -/
def stored : Outside where
  deflate chunks := storedBlocks chunks.flatten ++ [0, 0, 0, 0xff, 0xff]
  finish last := storedBlocks last ++ [1, 0, 0, 0xff, 0xff]
  inflate := readStored true
  decompress := readStored false
  md5 _ := "35ebbd1d59c0028fea777c91445c4c6c"

lemma readStored_blocks (final : Bool) (data rest : Bytes) :
    readStored final (storedBlocks data ++ rest) = (readStored final rest).map (data ++ ·) := by
  induction data with
  | nil => simp [storedBlocks]
  | cons byte data ih =>
    have hblock : storedBlocks (byte :: data) ++ rest =
        0 :: 1 :: 0 :: 0xfe :: 0xff :: byte :: (storedBlocks data ++ rest) := rfl
    rw [hblock, readStored, if_neg (by decide), ih, Option.map_map]
    rfl

lemma readStored_pieces (final : Bool) (pieces : List (List Bytes)) (rest : Bytes) :
    readStored final ((pieces.map stored.deflate).flatten ++ rest) =
      (readStored final rest).map ((pieces.map List.flatten).flatten ++ ·) := by
  induction pieces with
  | nil => simp
  | cons chunks pieces ih =>
    have hflush : ∀ bytes, readStored final ([0, 0, 0, 0xff, 0xff] ++ bytes) =
        readStored final bytes := by
      intro bytes
      cases bytes <;> simp [readStored]
    rw [List.map_cons, List.flatten_cons, stored, List.append_assoc, List.append_assoc,
      readStored_blocks, hflush]
    have h := ih
    rw [stored] at h
    rw [h, Option.map_map]
    simp [Function.comp_def]

lemma lawful_stored : stored.Lawful where
  inflate_joined pieces last := by
    have hlast : readStored true (storedBlocks last ++ [1, 0, 0, 0xff, 0xff]) = some last := by
      rw [readStored_blocks]
      simp [readStored]
    exact (readStored_pieces true pieces _).trans (by rw [stored, hlast]; rfl)
  decompress_joined pieces := by
    have h := readStored_pieces false pieces []
    rw [List.append_nil] at h
    rw [stored] at h ⊢
    simpa [readStored] using h

/-- A field of a header, filled up with zeros. -/
def field (width : ℕ) (text : String) : Bytes :=
  let bytes := text.toUTF8.toList.map UInt8.toBitVec
  bytes ++ List.replicate (width - bytes.length) 0

def octal (width n : ℕ) : Bytes :=
  let digits := Nat.toDigits 8 n
  field width (String.ofList (List.replicate (width - 1 - digits.length) '0' ++ digits))

/-- The header of a short name. -/
def ustar (info : TarInfo) : Bytes :=
  let kind := match info.type with
    | .regular => "0"
    | .symlink => "2"
    | .directory => "5"
  let before := field 100 info.name ++ octal 8 info.mode ++ octal 8 0 ++ octal 8 0 ++
    octal 12 info.size ++ octal 12 0
  let after := field 1 kind ++ field 100 info.linkname ++ field 6 "ustar" ++ field 2 "00" ++
    field 64 "" ++ octal 8 0 ++ octal 8 0 ++ field 155 "" ++ field 12 ""
  let sum := ((before ++ field 8 "        " ++ after).map BitVec.toNat).sum
  before ++ octal 7 sum ++ field 1 " " ++ after

def oneByte : Packed :=
  (pack stored packPieceBytes 1 [0x61]).get (isSome_pack (by decide) |>.mpr rfl)

def oneByteRow : Kept where
  rel := "mesh.cdb"
  bucket := "exchange"
  key := "out.tgz.kept/7f/mesh.cdb.gz"
  bytes := oneByte.bytes
  gzBytes := oneByte.object.length
  gzMd5 := oneByte.gzMd5
  mode := 0o644
  fetch := false
  crc32 := oneByte.crc32

def oneOfEach : List Entry :=
  [.bare ⟨"mesh/constant/", 0, 0o755, .directory, ""⟩,
    .file "mesh/constant/a" 0o644 [[0x62, 0x63], [0x64]], .kept "mesh/mesh.cdb" oneByteRow]

theorem bundle_is_plain_one_of_each :
    ∃ stream, bundleChunks stored ustar (fun _ _ => oneByte.object) oneOfEach = .ok stream ∧
      gunzip stored stream = some (plainTar ustar (fun _ => [0x61]) oneOfEach) ∧
      (plainTar ustar (fun _ => [0x61]) oneOfEach).length % recordSize = 0 :=
  bundle_is_plain lawful_stored ustar (fun _ _ => oneByte.object) (fun _ => [0x61]) oneOfEach
    fun name k hk => by
      obtain ⟨-, rfl⟩ : name = "mesh/mesh.cdb" ∧ k = oneByteRow := by simpa [oneOfEach] using hk
      exact ⟨packPieceBytes, 1, oneByte, by decide, (Option.some_get _).symm, rfl, rfl, rfl, rfl,
        rfl⟩

/-- The check of any number of parts, put together part by part, is the check of the whole. -/
theorem crc32_of_parts (parts : List Bytes) (value : BitVec 32) :
    parts.foldl (fun crc part => crc32Combine crc (crc32 part 0) part.length) value =
      crc32 parts.flatten value := by
  suffices h : ∀ before : Bytes,
      parts.foldl (fun crc part => crc32Combine crc (crc32 part 0) part.length)
        (crc32 before value) = crc32 (before ++ parts.flatten) value by
    simpa [crc32_nil] using h []
  induction parts with
  | nil => simp
  | cons part parts ih =>
    intro before
    rw [List.foldl_cons, crc32Combine_eq, ih, List.flatten_cons, List.append_assoc]

/-- What is packed is given back, however it is read; and what any stored object gives as the file
are its first bytes, as many as its row says. -/
theorem packed_given_back (hO : O.Lawful) {pieceBytes size : ℕ} (hpiece : pieceBytes ≠ 0) :
    (∀ data p, pack O pieceBytes size data = some p → ∀ outs : List Bytes,
      O.decompress p.object = some outs.flatten → rawLoop outs p.bytes = .ok data) ∧
    (∀ (outs : List Bytes) n data, rawLoop outs n = .ok data →
      data.length = n ∧ data = outs.flatten.take n) ∧
    ∀ data, (pack O pieceBytes size data).isSome ↔ data.length = size := by
  refine ⟨?_, fun outs n data h => (rawLoop_ok h).symm, fun data => isSome_pack hpiece⟩
  intro data p h outs houts
  obtain ⟨hbytes, -, -, pieces, hobject, hdata⟩ := pack_spec hpiece h
  rw [hobject, hO.decompress_joined, hdata, Option.some.injEq] at houts
  rw [hbytes]
  exact rawLoop_of_padded houts.symm fun b hb => mem_padding hb

theorem packed_given_back_stored :
    (∀ data p, pack stored packPieceBytes 1 data = some p → ∀ outs : List Bytes,
      stored.decompress p.object = some outs.flatten → rawLoop outs p.bytes = .ok data) ∧
    (∀ (outs : List Bytes) n data, rawLoop outs n = .ok data →
      data.length = n ∧ data = outs.flatten.take n) ∧
    ∀ data, (pack stored packPieceBytes 1 data).isSome ↔ data.length = 1 :=
  packed_given_back lawful_stored (by decide)

end MeshPipeline.BucketFiles
