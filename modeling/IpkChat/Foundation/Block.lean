/-
  Foundation/Block.lean --- heap blocks that are filled by writes.

  A fresh block has indeterminate cells.  A write that leaves the block has no
  meaning and gives `none`; so does reading a block some cell of which was never
  written.  A program that fills a block by writes at computed offsets is correct
  when its final contents is `some` byte string.
-/
import IpkChat.Foundation.Bytes

set_option autoImplicit false

namespace IpkChat.Foundation

/-- The cells of a heap block; `none` is a cell not written yet. -/
abbrev Block : Type := List (Option UInt8)

/-- The block allocated by malloc(size). -/
def malloc (size : Nat) : Block := List.replicate size none

/-- Write `s` at offset `off`; `none` when the write leaves the block. -/
def Block.write (block : Block) (off : Nat) (s : Bytes) : Option Block :=
  if off + s.length ≤ block.length then
    some (block.take off ++ s.map some ++ block.drop (off + s.length))
  else none

/-- The write of strcpy(&block[off], s): the string and its terminating zero. -/
def Block.strcpy (block : Block) (off : Nat) (s : Bytes) : Option Block :=
  block.write off (s ++ [0])

/-- The bytes of a block every cell of which is written. -/
def Block.contents (block : Block) : Option Bytes := block.mapM id

/-- A block whose first bytes are written and whose last `free` cells are not. -/
def Block.partial_ (written : Bytes) (free : Nat) : Block := written.map some ++ malloc free

/-- Writing where the written part ends extends the written part. -/
theorem Block.write_partial {written s : Bytes} {off free : Nat} (hoff : off = written.length)
    (hfree : s.length ≤ free) :
    (Block.partial_ written free).write off s =
      some (Block.partial_ (written ++ s) (free - s.length)) := by
  subst hoff
  simp only [Block.write, Block.partial_, malloc, List.length_append, List.length_map,
    List.length_replicate, List.map_append]
  rw [if_pos (by omega), List.take_append_of_le_length (by simp),
    List.take_of_length_le (by simp), List.drop_append, List.drop_of_length_le (by simp)]
  simp

theorem Block.strcpy_partial {written s : Bytes} {off free : Nat} (hoff : off = written.length)
    (hfree : s.length + 1 ≤ free) :
    (Block.partial_ written free).strcpy off s =
      some (Block.partial_ (written ++ s ++ [0]) (free - (s.length + 1))) := by
  rw [Block.strcpy, Block.write_partial hoff (by simpa using hfree)]
  simp

theorem Block.contents_partial_zero (written : Bytes) :
    (Block.partial_ written 0).contents = some written := by
  simp only [Block.contents, Block.partial_, malloc, List.replicate_zero, List.append_nil]
  induction written with
  | nil => rfl
  | cons b bs ih => simp [List.mapM_cons, ih]

end IpkChat.Foundation
