/-
Program images made of integers. The same numbers can come as bytes, as a list, of which each has to be a byte, or as
a table of 64-bit integers, which wrap modulo 256. Numbers that are bytes lead to one outcome in all three forms: they
stand in memory from 0x200 on, and nothing else has changed, unless they are too many. Whether they are too many is
asked of the bytes they have become, so a list with another number in it is refused for that number, however long.
-/
import Chip8.Proofs.Loading

namespace Chip8

/-! ## Integers as bytes -/

namespace Payload

variable {ns : List Int}

theorem map_toNat_byteOfInt (ns : List Int) :
    (ns.map UInt8.ofInt).map (fun b => (b.toNat : Int)) = ns.map (· % 256) := by
  rw [List.map_map]
  exact List.map_congr_left fun n _ => toNat_byteOfInt n

/-- Bytes stay what they are modulo 256. -/
theorem map_emod_of_bytes (h : ∀ n ∈ ns, 0 ≤ n ∧ n < 256) : ns.map (· % 256) = ns := by
  have hself : ∀ n ∈ ns, n % 256 = n := fun n hn => Int.emod_eq_of_lt (h n hn).1 (h n hn).2
  exact (List.map_congr_left hself).trans (List.map_id ns)

/-! ## Lists -/

theorem itemByte_int (n : Int) :
    itemByte (.int n) = if 0 ≤ n ∧ n < 256 then .ok (UInt8.ofInt n) else .error .byteOutOfRange := rfl

theorem valueBytes_cons (n : Int) (ns : List Int) :
    valueBytes (.list ((n :: ns).map .int)) = do
      return (← itemByte (.int n)) :: (← valueBytes (.list (ns.map .int))) :=
  List.mapM_cons

theorem valueBytes_of_bytes (h : ∀ n ∈ ns, 0 ≤ n ∧ n < 256) :
    valueBytes (.list (ns.map .int)) = .ok (ns.map UInt8.ofInt) := by
  induction ns with
  | nil => rfl
  | cons n ns ih =>
    obtain ⟨hn, hns⟩ := List.forall_mem_cons.1 h
    rw [valueBytes_cons, itemByte_int, if_pos hn, ih hns]
    rfl

/-- The first number that is not a byte decides. -/
theorem valueBytes_of_other (h : ∃ n ∈ ns, ¬ (0 ≤ n ∧ n < 256)) :
    valueBytes (.list (ns.map .int)) = .error .byteOutOfRange := by
  induction ns with
  | nil => simp at h
  | cons n ns ih =>
    rw [valueBytes_cons, itemByte_int]
    by_cases hn : 0 ≤ n ∧ n < 256
    · have hns : ∃ n ∈ ns, ¬ (0 ≤ n ∧ n < 256) := by
        obtain ⟨k, hk, hbad⟩ := h
        rcases List.mem_cons.1 hk with rfl | hk
        · exact absurd hn hbad
        · exact ⟨k, hk, hbad⟩
      rw [if_pos hn, ih hns]
      rfl
    · rw [if_neg hn]
      rfl

/-! ## Tables -/

/-- Integers as the items of a list are a table of one axis. -/
theorem shape?_integers (ns : List Int) : Datum.shape? (.list (ns.map .int)) = some [ns.length] := by
  have hitems : ∀ ms : List Int, Datum.allShape [] (ms.map .int) = true := by
    intro ms
    induction ms with
    | nil => rfl
    | cons m ms ih => rw [List.map_cons, Datum.allShape, ih]; rfl
  cases ns with
  | nil => rfl
  | cons n ns =>
    have hitem : Datum.shape? (.int n) = some [] := rfl
    rw [List.map_cons, Datum.shape?, hitem]
    simp [hitems, Datum.shallow?, Datum.maxDepth]

theorem leaves_integers (ns : List Int) : Datum.leaves (.list (ns.map .int)) = ns.map .int := by
  rw [Datum.leaves]
  induction ns with
  | nil => rfl
  | cons n ns ih => rw [List.map_cons, Datum.allLeaves, ih]; rfl

theorem ofTable_integers (ns : List Int) :
    ofTable (.list (ns.map .int)) = .ok (.table [ns.length] (ns.map .int)) := by
  rw [ofTable, shape?_integers, leaves_integers]

theorem tableBytes_integers (h : ∀ n ∈ ns, fits64 n = true) :
    tableBytes (ns.map .int) = .ok (ns.map UInt8.ofInt) := by
  have hsigned : Integers (ns.map .int) := by
    refine .inl fun d hd => ?_
    obtain ⟨n, hn, rfl⟩ := List.mem_map.1 hd
    exact ⟨n, .int n, fits64_iff.1 (h n hn)⟩
  rw [tableBytes_of_integers hsigned, List.map_map]
  rfl

end Payload

/-! ## Loading them -/

namespace State

/-- In the state `t` the numbers stand from 0x200 on, and everything else is as in the state `s`. -/
structure Stores (s : State) (ns : List Int) (t : State) : Prop where
  inside : ∀ i (h : i < ns.length), ((t.memory.read (0x200 + i)).toNat : Int) = ns[i]
  outside : ∀ a < 4096, a < 0x200 ∨ 0x200 + ns.length ≤ a → t.memory.read a = s.memory.read a
  others : t = { s with memory := t.memory }

/-- The outcome of loading numbers that are bytes: they are refused if they do not fit between 0x200 and the end of
memory, and are stored otherwise. -/
def Loads (s : State) (ns : List Int) : Except Error State → Prop
  | .error e => 3584 < ns.length ∧ e = .programTooLarge ns.length
  | .ok t => ns.length ≤ 3584 ∧ s.Stores ns t

/-- An image in one row is loaded as its bytes are. -/
theorem load_of_flat (s : State) {p : Payload} {image : List UInt8} (hp : p.isFlat = true)
    (h : p.toBytes = .ok image) : s.load p = s.load (.bytes image) := by
  have hbytes : (Payload.bytes image).toBytes = .ok image := rfl
  have hflat : (Payload.bytes image).isFlat = true := rfl
  simp only [load, h, hp, hbytes, hflat]

theorem load_bytes_of_long (s : State) {data : List UInt8} (h : 3584 < data.length) :
    s.load (.bytes data) = .error (.programTooLarge data.length) :=
  if_pos h

theorem stores_writeAll (s : State) {data : List UInt8} (h : data.length ≤ 3584) :
    s.Stores (data.map fun b => (b.toNat : Int))
      { s with memory := s.memory.writeAll Memory.programStart data } where
  inside i hi := by
    rw [List.length_map] at hi
    have hread : (s.memory.writeAll 0x200 data).read (0x200 + i) = data[i] :=
      s.memory.read_writeAll_add 0x200 (by omega) hi
    rw [List.getElem_map, ← hread]
    rfl
  outside a ha hout := by
    rw [List.length_map] at hout
    have hread : (s.memory.writeAll 0x200 data).read a = _ := s.memory.read_writeAll (by omega) ha
    rwa [if_neg (by omega)] at hread
  others := rfl

theorem loads_bytes (s : State) (data : List UInt8) :
    s.Loads (data.map fun b => (b.toNat : Int)) (s.load (.bytes data)) := by
  by_cases h : data.length ≤ 3584
  · rw [load_bytes s h]
    exact ⟨by rwa [List.length_map], s.stores_writeAll h⟩
  · rw [load_bytes_of_long s (by omega), Loads, List.length_map]
    exact ⟨by omega, rfl⟩

/-- Let 64-bit integers be loaded into a machine in any state. As a table they are stored modulo 256, if they
are not too many. If all of them are bytes, then as a list and as bytes they lead to the same as in a table,
which is that they are stored as they are, or that they are too many. If one of them is no byte, then as a list
they are refused for it. -/
theorem load_integers (s : State) {ns : List Int} (h64 : ∀ n ∈ ns, fits64 n = true) :
    let list : Datum := .list (ns.map .int)
    ∃ table, Payload.ofTable list = .ok table ∧
      s.Loads (ns.map (· % 256)) (s.load table) ∧
      ((∀ n ∈ ns, 0 ≤ n ∧ n < 256) →
        s.Loads ns (s.load table) ∧ s.load (.value list) = s.load table ∧
          s.load (.bytes (ns.map UInt8.ofInt)) = s.load table) ∧
      ((∃ n ∈ ns, ¬ (0 ≤ n ∧ n < 256)) → s.load (.value list) = .error .byteOutOfRange) := by
  intro list
  have htable := s.load_of_flat (p := .table [ns.length] (ns.map .int)) rfl (Payload.tableBytes_integers h64)
  have hloads := s.loads_bytes (ns.map UInt8.ofInt)
  rw [Payload.map_toNat_byteOfInt, ← htable] at hloads
  refine ⟨_, Payload.ofTable_integers ns, hloads, fun hbytes => ⟨?_, ?_, htable.symm⟩, fun hother => ?_⟩
  · rwa [Payload.map_emod_of_bytes hbytes] at hloads
  · have hlist : (Payload.value list).toBytes = .ok (ns.map UInt8.ofInt) := Payload.valueBytes_of_bytes hbytes
    exact (s.load_of_flat rfl hlist).trans htable.symm
  · have hlist : (Payload.value list).toBytes = .error .byteOutOfRange := Payload.valueBytes_of_other hother
    rw [load, hlist]

/-- Numbers that fill the room for programs up to the last cell, and numbers that are one too many. None is a byte. -/
def fullRow : List Int := List.replicate 3584 (-1)

def longRow : List Int := List.replicate 3585 0x100

/-- The table of the first is stored, with 255 in the last cell of memory, and that of the second is too large.
As lists both are refused for their items. The least and the greatest byte are the same program in all forms. -/
theorem load_integers_at_edges :
    let s := powerOn ⟨true, true, true, true⟩ ⟨1, 2⟩
    (∃ table t, Payload.ofTable (.list (fullRow.map .int)) = .ok table ∧ s.load table = .ok t ∧
      (t.memory.read 0xFFF).toNat = 0xFF) ∧
    (∃ table, Payload.ofTable (.list (longRow.map .int)) = .ok table ∧
      s.load table = .error (.programTooLarge 3585)) ∧
    s.load (.value (.list (fullRow.map .int))) = .error .byteOutOfRange ∧
    s.load (.value (.list (longRow.map .int))) = .error .byteOutOfRange ∧
    s.load (.value (.list [.int 0, .int 0xFF])) = s.load (.bytes [0, 0xFF]) := by
  intro s
  have hfull : ∀ n ∈ fullRow, n = -1 := fun n hn => List.eq_of_mem_replicate hn
  have hlong : ∀ n ∈ longRow, n = 0x100 := fun n hn => List.eq_of_mem_replicate hn
  have hfullFits : ∀ n ∈ fullRow, fits64 n = true := fun n hn => hfull n hn ▸ by decide
  have hlongFits : ∀ n ∈ longRow, fits64 n = true := fun n hn => hlong n hn ▸ by decide
  have hfullLength : fullRow.length = 3584 := List.length_replicate
  have hlongLength : longRow.length = 3585 := List.length_replicate
  obtain ⟨table, htable, hloads, -, hlist⟩ := s.load_integers hfullFits
  obtain ⟨table', htable', hloads', -, hlist'⟩ := s.load_integers hlongFits
  obtain ⟨_, -, -, hbytes, -⟩ := s.load_integers (by decide : ∀ n ∈ [0, 0xFF], fits64 n = true)
  obtain ⟨-, hsame, hsame'⟩ := hbytes (by decide)
  refine ⟨⟨table, ?_⟩, ⟨table', htable', ?_⟩, hlist ⟨-1, ?_, by decide⟩, hlist' ⟨0x100, ?_, by decide⟩,
    hsame.trans hsame'.symm⟩
  · cases ht : s.load table with
    | error e =>
      rw [ht, Loads, List.length_map] at hloads
      omega
    | ok t =>
      rw [ht] at hloads
      have hlast := hloads.2.inside 3583 (by rw [List.length_map]; omega)
      rw [List.getElem_map, hfull _ (List.getElem_mem _)] at hlast
      exact ⟨t, htable, rfl, Int.ofNat_inj.1 hlast⟩
  · cases ht : s.load table' with
    | error e =>
      rw [ht, Loads, List.length_map, hlongLength] at hloads'
      rw [hloads'.2]
    | ok t =>
      rw [ht, Loads, List.length_map] at hloads'
      omega
  · exact List.mem_replicate.2 ⟨by decide, rfl⟩
  · exact List.mem_replicate.2 ⟨by decide, rfl⟩

end State

end Chip8
