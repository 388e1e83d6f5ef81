import RbsSynth.Lr.Row

/-!
The LALR(1) table of the signature language.

Row `i` holds the moves of state `i`, with terminals, nonterminals and productions by their numbers
in `RbsSynth.Signature.Grammar`.  That these are the rows of the automaton of `grammar`, where a
terminal that can be both shifted and reduced before is shifted, is `automaton_grammar`.
-/

namespace RbsSynth.Signature

def table : Array Lr.Row :=
  #[
    ⟨[(9, 1)], [(2, 1125899906842624), (7, 180428801)], [(52, 2), (53, 3), (54, 4), (55, 5),
      (56, 6)]⟩,
    ⟨[], [(8, 2344706977)], []⟩,
    ⟨[], [(0, 1125899906842624)], []⟩,
    ⟨[(9, 1)], [(1, 1125899906842624), (7, 180428801)], [(54, 7), (55, 5), (56, 6)]⟩,
    ⟨[], [(3, 1125900087271937)], []⟩,
    ⟨[(0, 8), (13, 9), (16, 10), (22, 11), (23, 12), (25, 13), (27, 14)], [], [(57, 15), (58,
      16), (60, 17), (64, 18), (65, 19), (66, 20), (67, 21), (100, 22)]⟩,
    ⟨[(9, 23)], [(6, 2344706465)], []⟩,
    ⟨[], [(4, 1125900087271937)], []⟩,
    ⟨[(16, 24)], [], []⟩,
    ⟨[(37, 25)], [], []⟩,
    ⟨[], [(176, 1964181083485089)], []⟩,
    ⟨[(0, 26), (15, 27)], [], [(101, 28)]⟩,
    ⟨[(0, 8), (16, 10)], [], [(100, 29)]⟩,
    ⟨[(0, 8), (16, 10)], [], [(100, 30)]⟩,
    ⟨[(0, 31), (12, 32)], [], [(102, 33)]⟩,
    ⟨[], [(5, 1125900087271937)], []⟩,
    ⟨[], [(10, 1125900087271937)], []⟩,
    ⟨[], [(11, 1125900087271937)], []⟩,
    ⟨[], [(12, 1125900087271937)], []⟩,
    ⟨[], [(13, 1125900087271937)], []⟩,
    ⟨[], [(14, 1125900087271937)], []⟩,
    ⟨[], [(15, 1125900087271937)], []⟩,
    ⟨[(37, 34)], [], []⟩,
    ⟨[], [(9, 2344706977)], []⟩,
    ⟨[], [(175, 1964181083485089)], []⟩,
    ⟨[(0, 35), (6, 36), (10, 37), (11, 38), (12, 32), (15, 27), (16, 10), (17, 39), (21, 40),
      (36, 41), (40, 42), (42, 43), (43, 44)], [], [(93, 45), (94, 46), (95, 47), (96, 48), (97,
      49), (100, 50), (101, 51), (102, 52)]⟩,
    ⟨[(15, 53)], [], []⟩,
    ⟨[], [(178, 1961844621276065)], []⟩,
    ⟨[(9, 1), (32, 54), (43, 55)], [(7, 2344698273)], [(55, 56), (56, 6), (68, 57), (69, 58),
      (88, 59)]⟩,
    ⟨[(9, 1), (32, 60), (37, 61), (43, 55)], [(7, 2344698273)], [(55, 56), (56, 6), (61, 62),
      (68, 63), (69, 58), (88, 64)]⟩,
    ⟨[(9, 1), (32, 65), (41, 66), (43, 55)], [(7, 2344698273)], [(55, 56), (56, 6), (59, 67),
      (68, 68), (69, 58), (88, 69)]⟩,
    ⟨[(12, 70)], [], []⟩,
    ⟨[], [(180, 1962394377089953)], []⟩,
    ⟨[(39, 71), (43, 55)], [], [(88, 72)]⟩,
    ⟨[(0, 35), (6, 36), (10, 37), (11, 38), (12, 32), (15, 27), (16, 10), (17, 39), (21, 40),
      (36, 41), (40, 42), (42, 43), (43, 44)], [], [(93, 73), (94, 46), (95, 47), (96, 48), (97,
      49), (100, 50), (101, 51), (102, 52)]⟩,
    ⟨[(12, 70), (15, 53), (16, 24)], [], []⟩,
    ⟨[], [(153, 1953048528253857)], []⟩,
    ⟨[], [(155, 1953048528253857)], []⟩,
    ⟨[], [(154, 1953048528253857)], []⟩,
    ⟨[], [(156, 1953048528253857)], []⟩,
    ⟨[(42, 74)], [], []⟩,
    ⟨[(33, 75), (40, 76), (42, 77), (43, 78), (44, 79)], [], [(82, 80), (85, 81), (87, 82)]⟩,
    ⟨[(3, 83), (44, 84)], [], [(98, 85)]⟩,
    ⟨[(0, 35), (6, 36), (10, 37), (11, 38), (12, 32), (15, 27), (16, 10), (17, 39), (21, 40),
      (36, 41), (40, 42), (42, 43), (43, 44)], [], [(93, 86), (94, 46), (95, 47), (96, 48), (97,
      49), (100, 50), (101, 51), (102, 52)]⟩,
    ⟨[(0, 35), (6, 36), (10, 37), (11, 38), (12, 32), (15, 27), (16, 10), (17, 39), (21, 40),
      (36, 41), (40, 42), (42, 43), (43, 44), (47, 87)], [], [(93, 88), (94, 46), (95, 47), (96,
      48), (97, 49), (100, 50), (101, 51), (102, 52)]⟩,
    ⟨[], [(49, 1125900087271937)], []⟩,
    ⟨[(49, 89)], [(139, 1372472029049761)], []⟩,
    ⟨[(35, 90)], [(140, 1935421982471073)], []⟩,
    ⟨[], [(142, 1935456342209441)], []⟩,
    ⟨[(44, 91)], [(144, 1935456342209441)], []⟩,
    ⟨[(43, 92)], [(147, 1953048528253857)], [(91, 93)]⟩,
    ⟨[(43, 92)], [(149, 1953048528253857)], [(91, 94)]⟩,
    ⟨[(43, 92)], [(151, 1953048528253857)], [(91, 95)]⟩,
    ⟨[], [(177, 1961844621276065)], []⟩,
    ⟨[], [(45, 1125906546516897)], []⟩,
    ⟨[(16, 96), (20, 97), (29, 98)], [], [(90, 99)]⟩,
    ⟨[(0, 8), (5, 100), (7, 101), (8, 102), (14, 103), (16, 10), (22, 11), (23, 12), (24, 104),
      (25, 13), (27, 14), (31, 105)], [], [(58, 106), (60, 107), (64, 108), (65, 109), (66, 110),
      (70, 111), (71, 112), (77, 113), (78, 114), (79, 115), (80, 116), (81, 117), (100, 22)]⟩,
    ⟨[(9, 1), (32, 118)], [(7, 2344698273)], [(55, 56), (56, 6), (69, 119)]⟩,
    ⟨[], [(50, 6639666081)], []⟩,
    ⟨[(9, 1), (32, 120)], [(7, 2344698273)], [(55, 56), (56, 6), (68, 121), (69, 58)]⟩,
    ⟨[], [(33, 1125906546516897)], []⟩,
    ⟨[(0, 122), (15, 27), (16, 10)], [], [(63, 123), (100, 124), (101, 125)]⟩,
    ⟨[(9, 1), (32, 126)], [(7, 2344698273)], [(55, 56), (56, 6), (68, 127), (69, 58)]⟩,
    ⟨[(9, 1), (32, 128)], [(7, 2344698273)], [(55, 56), (56, 6), (69, 119)]⟩,
    ⟨[(9, 1), (32, 129), (37, 61)], [(7, 2344698273)], [(55, 56), (56, 6), (61, 130), (68, 131),
      (69, 58)]⟩,
    ⟨[], [(23, 1125906546516897)], []⟩,
    ⟨[(0, 8), (16, 10)], [], [(100, 132)]⟩,
    ⟨[(9, 1), (32, 133)], [(7, 2344698273)], [(55, 56), (56, 6), (68, 134), (69, 58)]⟩,
    ⟨[(9, 1), (32, 135)], [(7, 2344698273)], [(55, 56), (56, 6), (69, 119)]⟩,
    ⟨[(9, 1), (32, 136), (41, 66)], [(7, 2344698273)], [(55, 56), (56, 6), (59, 137), (68, 138),
      (69, 58)]⟩,
    ⟨[], [(179, 1962394377089953)], []⟩,
    ⟨[(0, 35), (6, 36), (10, 37), (11, 38), (12, 32), (15, 27), (16, 10), (17, 39), (21, 40),
      (36, 41), (40, 42), (42, 43), (43, 44)], [], [(93, 139), (94, 46), (95, 47), (96, 48), (97,
      49), (100, 50), (101, 51), (102, 52)]⟩,
    ⟨[(39, 140)], [], []⟩,
    ⟨[], [(48, 1125906546516897)], []⟩,
    ⟨[(0, 8), (16, 10)], [], [(100, 141)]⟩,
    ⟨[(0, 35), (6, 36), (10, 37), (11, 38), (12, 32), (15, 27), (16, 10), (17, 39), (21, 40),
      (36, 41), (40, 42), (42, 43), (43, 44)], [], [(96, 142), (97, 49), (100, 50), (101, 51),
      (102, 52)]⟩,
    ⟨[(33, 143), (42, 77), (43, 78)], [], [(82, 144), (86, 145), (87, 146)]⟩,
    ⟨[(0, 35), (3, 147), (6, 36), (10, 37), (11, 38), (12, 32), (15, 27), (16, 10), (17, 39),
      (21, 40), (34, 148), (36, 41), (40, 42), (42, 43), (43, 44), (44, 149), (46, 150), (48,
      151)], [], [(84, 152), (93, 153), (94, 46), (95, 47), (96, 48), (97, 49), (100, 50), (101,
      51), (102, 52)]⟩,
    ⟨[(26, 154)], [], []⟩,
    ⟨[(40, 155)], [], []⟩,
    ⟨[(33, 156), (40, 76), (43, 78), (44, 79)], [], [(85, 157), (87, 158)]⟩,
    ⟨[(33, 159)], [], []⟩,
    ⟨[(33, 160), (40, 76), (44, 79)], [], [(85, 161)]⟩,
    ⟨[(0, 35), (6, 36), (10, 37), (11, 38), (12, 32), (15, 27), (16, 10), (17, 39), (21, 40),
      (36, 41), (40, 42), (42, 43), (43, 44)], [], [(93, 162), (94, 46), (95, 47), (96, 48), (97,
      49), (100, 50), (101, 51), (102, 52)]⟩,
    ⟨[(3, 163)], [], []⟩,
    ⟨[(38, 164), (45, 165)], [], [(99, 166)]⟩,
    ⟨[(46, 167)], [], []⟩,
    ⟨[], [(158, 1953048528253857)], []⟩,
    ⟨[(38, 168), (47, 169)], [], [(92, 170)]⟩,
    ⟨[(0, 35), (6, 36), (10, 37), (11, 38), (12, 32), (15, 27), (16, 10), (17, 39), (21, 40),
      (36, 41), (40, 42), (42, 43), (43, 44)], [], [(95, 171), (96, 48), (97, 49), (100, 50),
      (101, 51), (102, 52)]⟩,
    ⟨[(0, 35), (6, 36), (10, 37), (11, 38), (12, 32), (15, 27), (16, 10), (17, 39), (21, 40),
      (36, 41), (40, 42), (42, 43), (43, 44)], [], [(96, 172), (97, 49), (100, 50), (101, 51),
      (102, 52)]⟩,
    ⟨[], [(145, 1953048528253857)], []⟩,
    ⟨[(0, 35), (6, 36), (10, 37), (11, 38), (12, 32), (15, 27), (16, 10), (17, 39), (21, 40),
      (36, 41), (40, 42), (42, 43), (43, 44)], [], [(93, 173), (94, 46), (95, 47), (96, 48), (97,
      49), (100, 50), (101, 51), (102, 52)]⟩,
    ⟨[], [(146, 1953048528253857)], []⟩,
    ⟨[], [(148, 1953048528253857)], []⟩,
    ⟨[], [(150, 1953048528253857)], []⟩,
    ⟨[(41, 174)], [(134, 141012366262272)], []⟩,
    ⟨[(16, 175), (29, 176)], [], []⟩,
    ⟨[(16, 177)], [], []⟩,
    ⟨[(38, 178), (47, 179)], [], [(89, 180)]⟩,
    ⟨[(2, 181), (3, 182)], [], []⟩,
    ⟨[(0, 122), (15, 27), (16, 10)], [], [(100, 183), (101, 184)]⟩,
    ⟨[], [(98, 6639666081)], []⟩,
    ⟨[(37, 185)], [], []⟩,
    ⟨[(2, 186), (4, 187), (12, 188), (16, 189), (28, 190)], [], [(73, 191)]⟩,
    ⟨[(1, 192), (2, 193), (4, 187), (12, 188), (16, 189), (28, 190)], [], [(72, 194), (73, 195)]⟩,
    ⟨[], [(59, 6639666081)], []⟩,
    ⟨[], [(60, 6639666081)], []⟩,
    ⟨[], [(61, 6639666081)], []⟩,
    ⟨[], [(62, 6639666081)], []⟩,
    ⟨[], [(63, 6639666081)], []⟩,
    ⟨[], [(52, 6639666081)], []⟩,
    ⟨[], [(53, 6639666081)], []⟩,
    ⟨[], [(54, 6639666081)], []⟩,
    ⟨[], [(55, 6639666081)], []⟩,
    ⟨[], [(56, 6639666081)], []⟩,
    ⟨[], [(57, 6639666081)], []⟩,
    ⟨[], [(58, 6639666081)], []⟩,
    ⟨[], [(44, 1125906546516897)], []⟩,
    ⟨[], [(51, 6639666081)], []⟩,
    ⟨[], [(43, 1125906546516897)], []⟩,
    ⟨[(9, 1), (32, 196)], [(7, 2344698273)], [(55, 56), (56, 6), (69, 119)]⟩,
    ⟨[(15, 53), (16, 24)], [], []⟩,
    ⟨[(38, 197)], [(35, 6639666081)], [(62, 198)]⟩,
    ⟨[(43, 92)], [(39, 281517573025)], [(91, 199)]⟩,
    ⟨[(43, 92)], [(41, 281517573025)], [(91, 200)]⟩,
    ⟨[], [(31, 1125906546516897)], []⟩,
    ⟨[(9, 1), (32, 201)], [(7, 2344698273)], [(55, 56), (56, 6), (69, 119)]⟩,
    ⟨[], [(32, 1125906546516897)], []⟩,
    ⟨[], [(29, 1125906546516897)], []⟩,
    ⟨[(9, 1), (32, 202)], [(7, 2344698273)], [(55, 56), (56, 6), (68, 203), (69, 58)]⟩,
    ⟨[(9, 1), (32, 204)], [(7, 2344698273)], [(55, 56), (56, 6), (69, 119)]⟩,
    ⟨[(43, 92)], [(25, 6639666081)], [(91, 205)]⟩,
    ⟨[], [(21, 1125906546516897)], []⟩,
    ⟨[(9, 1), (32, 206)], [(7, 2344698273)], [(55, 56), (56, 6), (69, 119)]⟩,
    ⟨[], [(22, 1125906546516897)], []⟩,
    ⟨[], [(19, 1125906546516897)], []⟩,
    ⟨[(9, 1), (32, 207)], [(7, 2344698273)], [(55, 56), (56, 6), (68, 208), (69, 58)]⟩,
    ⟨[(9, 1), (32, 209)], [(7, 2344698273)], [(55, 56), (56, 6), (69, 119)]⟩,
    ⟨[], [(47, 1125906546516897)], []⟩,
    ⟨[(0, 35), (6, 36), (10, 37), (11, 38), (12, 32), (15, 27), (16, 10), (17, 39), (21, 40),
      (36, 41), (40, 42), (42, 43), (43, 44)], [], [(93, 210), (94, 46), (95, 47), (96, 48), (97,
      49), (100, 50), (101, 51), (102, 52)]⟩,
    ⟨[(46, 211)], [], []⟩,
    ⟨[], [(170, 1953048528253857)], []⟩,
    ⟨[(0, 35), (6, 36), (10, 37), (11, 38), (12, 32), (15, 27), (16, 10), (17, 39), (21, 40),
      (36, 41), (40, 42), (42, 43), (43, 44)], [], [(96, 212), (97, 49), (100, 50), (101, 51),
      (102, 52)]⟩,
    ⟨[(33, 213), (43, 78)], [], [(87, 214)]⟩,
    ⟨[(45, 215)], [], []⟩,
    ⟨[(33, 216)], [], []⟩,
    ⟨[(0, 35), (6, 36), (10, 37), (11, 38), (12, 32), (15, 27), (16, 10), (17, 39), (21, 40),
      (36, 41), (40, 42), (42, 43), (43, 44)], [], [(93, 217), (94, 46), (95, 47), (96, 48), (97,
      49), (100, 50), (101, 51), (102, 52)]⟩,
    ⟨[(0, 35), (6, 36), (10, 37), (11, 38), (12, 32), (15, 27), (16, 10), (17, 39), (21, 40),
      (36, 41), (40, 42), (42, 43), (43, 44)], [], [(93, 218), (94, 46), (95, 47), (96, 48), (97,
      49), (100, 50), (101, 51), (102, 52)]⟩,
    ⟨[(0, 35), (3, 219), (6, 36), (10, 37), (11, 38), (12, 32), (15, 27), (16, 10), (17, 39),
      (21, 40), (36, 41), (40, 42), (42, 43), (43, 44)], [], [(93, 220), (94, 46), (95, 47), (96,
      48), (97, 49), (100, 50), (101, 51), (102, 52)]⟩,
    ⟨[], [(99, 27496380628992)], []⟩,
    ⟨[(0, 35), (6, 36), (10, 37), (11, 38), (12, 32), (15, 27), (16, 10), (17, 39), (21, 40),
      (36, 41), (40, 42), (42, 43), (43, 44)], [], [(93, 221), (94, 46), (95, 47), (96, 48), (97,
      49), (100, 50), (101, 51), (102, 52)]⟩,
    ⟨[(38, 222), (46, 223)], [], [(83, 224)]⟩,
    ⟨[(12, 225)], [(105, 70643622084608)], []⟩,
    ⟨[(37, 226)], [], []⟩,
    ⟨[(33, 143), (42, 77), (43, 78)], [], [(82, 144), (86, 227), (87, 146)]⟩,
    ⟨[(0, 35), (6, 36), (10, 37), (11, 38), (12, 32), (15, 27), (16, 10), (17, 39), (21, 40),
      (36, 41), (40, 42), (42, 43), (43, 44)], [], [(96, 228), (97, 49), (100, 50), (101, 51),
      (102, 52)]⟩,
    ⟨[(33, 229)], [], []⟩,
    ⟨[(33, 230), (40, 76), (44, 79)], [], [(85, 231)]⟩,
    ⟨[(0, 35), (6, 36), (10, 37), (11, 38), (12, 32), (15, 27), (16, 10), (17, 39), (21, 40),
      (36, 41), (40, 42), (42, 43), (43, 44)], [], [(96, 232), (97, 49), (100, 50), (101, 51),
      (102, 52)]⟩,
    ⟨[(0, 35), (6, 36), (10, 37), (11, 38), (12, 32), (15, 27), (16, 10), (17, 39), (21, 40),
      (36, 41), (40, 42), (42, 43), (43, 44)], [], [(96, 233), (97, 49), (100, 50), (101, 51),
      (102, 52)]⟩,
    ⟨[(33, 234)], [], []⟩,
    ⟨[], [(171, 35459249995776)], []⟩,
    ⟨[(0, 35), (6, 36), (10, 37), (11, 38), (12, 32), (15, 27), (16, 10), (17, 39), (21, 40),
      (36, 41), (40, 42), (42, 43), (43, 44)], [], [(93, 235), (94, 46), (95, 47), (96, 48), (97,
      49), (100, 50), (101, 51), (102, 52)]⟩,
    ⟨[(3, 83), (44, 84)], [], [(98, 236)]⟩,
    ⟨[], [(162, 1953048528253857)], []⟩,
    ⟨[(38, 237), (45, 238)], [], []⟩,
    ⟨[], [(157, 1953048528253857)], []⟩,
    ⟨[(0, 35), (6, 36), (10, 37), (11, 38), (12, 32), (15, 27), (16, 10), (17, 39), (21, 40),
      (36, 41), (40, 42), (42, 43), (43, 44)], [], [(93, 239), (94, 46), (95, 47), (96, 48), (97,
      49), (100, 50), (101, 51), (102, 52)]⟩,
    ⟨[], [(160, 1953048528253857)], []⟩,
    ⟨[(38, 240), (47, 241)], [], []⟩,
    ⟨[(35, 90)], [(141, 1935421982471073)], []⟩,
    ⟨[], [(143, 1935456342209441)], []⟩,
    ⟨[(38, 168), (47, 242)], [], [(92, 243)]⟩,
    ⟨[(0, 35), (6, 36), (10, 37), (11, 38), (12, 32), (15, 27), (16, 10), (17, 39), (21, 40),
      (36, 41), (40, 42), (42, 43), (43, 44)], [], [(93, 244), (94, 46), (95, 47), (96, 48), (97,
      49), (100, 50), (101, 51), (102, 52)]⟩,
    ⟨[(41, 245)], [(130, 141012366262272)], []⟩,
    ⟨[(16, 246)], [], []⟩,
    ⟨[(41, 247)], [(132, 141012366262272)], []⟩,
    ⟨[(16, 96), (20, 97), (29, 98)], [], [(90, 248)]⟩,
    ⟨[], [(124, 25991191806881)], []⟩,
    ⟨[(38, 249), (47, 250)], [], []⟩,
    ⟨[(3, 251)], [], []⟩,
    ⟨[(0, 35), (6, 36), (10, 37), (11, 38), (12, 32), (15, 27), (16, 10), (17, 39), (21, 40),
      (36, 41), (40, 42), (42, 43), (43, 44)], [], [(93, 252), (94, 46), (95, 47), (96, 48), (97,
      49), (100, 50), (101, 51), (102, 52)]⟩,
    ⟨[(43, 92)], [(90, 6639666081)], [(91, 253)]⟩,
    ⟨[(43, 92)], [(92, 6639666081)], [(91, 254)]⟩,
    ⟨[(0, 35), (6, 36), (10, 37), (11, 38), (12, 32), (15, 27), (16, 10), (17, 39), (21, 40),
      (36, 41), (40, 42), (42, 43), (43, 44)], [], [(93, 255), (94, 46), (95, 47), (96, 48), (97,
      49), (100, 50), (101, 51), (102, 52)]⟩,
    ⟨[(4, 187), (12, 188), (16, 189), (28, 190)], [], [(73, 256)]⟩,
    ⟨[], [(70, 144347059125)], []⟩,
    ⟨[], [(68, 144347059125)], []⟩,
    ⟨[], [(69, 144347059125)], []⟩,
    ⟨[], [(71, 144347059125)], []⟩,
    ⟨[(2, 257), (4, 187), (12, 188), (16, 189), (28, 190)], [], [(73, 258)]⟩,
    ⟨[], [(67, 268505104)], []⟩,
    ⟨[], [(66, 268505104)], []⟩,
    ⟨[(4, 187), (12, 188), (16, 189), (28, 190)], [], [(73, 259)]⟩,
    ⟨[(37, 260)], [], []⟩,
    ⟨[], [(42, 1125906546516897)], []⟩,
    ⟨[(0, 122), (15, 27), (16, 10)], [], [(63, 261), (100, 124), (101, 125)]⟩,
    ⟨[(38, 262)], [(34, 6639666081)], []⟩,
    ⟨[], [(38, 281517573025)], []⟩,
    ⟨[], [(40, 281517573025)], []⟩,
    ⟨[], [(30, 1125906546516897)], []⟩,
    ⟨[], [(27, 1125906546516897)], []⟩,
    ⟨[(9, 1), (32, 263)], [(7, 2344698273)], [(55, 56), (56, 6), (69, 119)]⟩,
    ⟨[], [(28, 1125906546516897)], []⟩,
    ⟨[], [(24, 6639666081)], []⟩,
    ⟨[], [(20, 1125906546516897)], []⟩,
    ⟨[], [(17, 1125906546516897)], []⟩,
    ⟨[(9, 1), (32, 264)], [(7, 2344698273)], [(55, 56), (56, 6), (69, 119)]⟩,
    ⟨[], [(18, 1125906546516897)], []⟩,
    ⟨[], [(46, 1125906546516897)], []⟩,
    ⟨[], [(152, 1953048528253857)], []⟩,
    ⟨[], [(121, 35184372088832)], []⟩,
    ⟨[(0, 35), (6, 36), (10, 37), (11, 38), (12, 32), (15, 27), (16, 10), (17, 39), (21, 40),
      (36, 41), (40, 42), (42, 43), (43, 44)], [], [(96, 265), (97, 49), (100, 50), (101, 51),
      (102, 52)]⟩,
    ⟨[(33, 266)], [], []⟩,
    ⟨[], [(116, 8589934592)], []⟩,
    ⟨[(0, 35), (6, 36), (10, 37), (11, 38), (12, 32), (15, 27), (16, 10), (17, 39), (21, 40),
      (36, 41), (40, 42), (42, 43), (43, 44)], [], [(96, 267), (97, 49), (100, 50), (101, 51),
      (102, 52)]⟩,
    ⟨[(12, 268)], [(111, 70643622084608)], []⟩,
    ⟨[(12, 269)], [(115, 70643622084608)], []⟩,
    ⟨[(0, 35), (6, 36), (10, 37), (11, 38), (12, 32), (15, 27), (16, 10), (17, 39), (21, 40),
      (36, 41), (40, 42), (42, 43), (43, 44)], [], [(93, 270), (94, 46), (95, 47), (96, 48), (97,
      49), (100, 50), (101, 51), (102, 52)]⟩,
    ⟨[(12, 271)], [(107, 70643622084608)], []⟩,
    ⟨[(12, 272)], [(109, 70643622084608)], []⟩,
    ⟨[(0, 35), (3, 147), (6, 36), (10, 37), (11, 38), (12, 32), (15, 27), (16, 10), (17, 39),
      (21, 40), (34, 148), (36, 41), (40, 42), (42, 43), (43, 44), (44, 149), (48, 151)], [],
      [(84, 273), (93, 153), (94, 46), (95, 47), (96, 48), (97, 49), (100, 50), (101, 51), (102,
      52)]⟩,
    ⟨[], [(100, 27496380628992)], []⟩,
    ⟨[(38, 274), (46, 275)], [], []⟩,
    ⟨[], [(104, 70643622084608)], []⟩,
    ⟨[(0, 35), (6, 36), (10, 37), (11, 38), (12, 32), (15, 27), (16, 10), (17, 39), (21, 40),
      (36, 41), (40, 42), (42, 43), (43, 44)], [], [(93, 276), (94, 46), (95, 47), (96, 48), (97,
      49), (100, 50), (101, 51), (102, 52)]⟩,
    ⟨[(45, 277)], [], []⟩,
    ⟨[], [(166, 1953048528253857)], []⟩,
    ⟨[(0, 35), (6, 36), (10, 37), (11, 38), (12, 32), (15, 27), (16, 10), (17, 39), (21, 40),
      (36, 41), (40, 42), (42, 43), (43, 44)], [], [(96, 278), (97, 49), (100, 50), (101, 51),
      (102, 52)]⟩,
    ⟨[(0, 35), (6, 36), (10, 37), (11, 38), (12, 32), (15, 27), (16, 10), (17, 39), (21, 40),
      (36, 41), (40, 42), (42, 43), (43, 44)], [], [(96, 279), (97, 49), (100, 50), (101, 51),
      (102, 52)]⟩,
    ⟨[(33, 280)], [], []⟩,
    ⟨[], [(169, 1953048528253857)], []⟩,
    ⟨[], [(168, 1953048528253857)], []⟩,
    ⟨[(0, 35), (6, 36), (10, 37), (11, 38), (12, 32), (15, 27), (16, 10), (17, 39), (21, 40),
      (36, 41), (40, 42), (42, 43), (43, 44)], [], [(96, 281), (97, 49), (100, 50), (101, 51),
      (102, 52)]⟩,
    ⟨[], [(172, 35459249995776)], []⟩,
    ⟨[], [(173, 35459249995776)], []⟩,
    ⟨[(3, 83), (44, 84)], [], [(98, 282)]⟩,
    ⟨[], [(161, 1953048528253857)], []⟩,
    ⟨[], [(137, 141012366262272)], []⟩,
    ⟨[(0, 35), (6, 36), (10, 37), (11, 38), (12, 32), (15, 27), (16, 10), (17, 39), (21, 40),
      (36, 41), (40, 42), (42, 43), (43, 44)], [], [(93, 283), (94, 46), (95, 47), (96, 48), (97,
      49), (100, 50), (101, 51), (102, 52)]⟩,
    ⟨[], [(159, 1953048528253857)], []⟩,
    ⟨[], [(136, 1953048528253857)], []⟩,
    ⟨[(38, 240), (47, 284)], [], []⟩,
    ⟨[], [(133, 141012366262272)], []⟩,
    ⟨[(0, 35), (6, 36), (10, 37), (11, 38), (12, 32), (15, 27), (16, 10), (17, 39), (21, 40),
      (36, 41), (40, 42), (42, 43), (43, 44)], [], [(93, 285), (94, 46), (95, 47), (96, 48), (97,
      49), (100, 50), (101, 51), (102, 52)]⟩,
    ⟨[(41, 286)], [(128, 141012366262272)], []⟩,
    ⟨[(0, 35), (6, 36), (10, 37), (11, 38), (12, 32), (15, 27), (16, 10), (17, 39), (21, 40),
      (36, 41), (40, 42), (42, 43), (43, 44)], [], [(93, 287), (94, 46), (95, 47), (96, 48), (97,
      49), (100, 50), (101, 51), (102, 52)]⟩,
    ⟨[], [(125, 141012366262272)], []⟩,
    ⟨[(16, 96), (20, 97), (29, 98)], [], [(90, 288)]⟩,
    ⟨[], [(123, 25991191806881)], []⟩,
    ⟨[(0, 35), (6, 36), (10, 37), (11, 38), (12, 32), (15, 27), (16, 10), (17, 39), (21, 40),
      (36, 41), (40, 42), (42, 43), (43, 44)], [], [(93, 289), (94, 46), (95, 47), (96, 48), (97,
      49), (100, 50), (101, 51), (102, 52)]⟩,
    ⟨[], [(88, 6639666081)], []⟩,
    ⟨[], [(89, 6639666081)], []⟩,
    ⟨[], [(91, 6639666081)], []⟩,
    ⟨[], [(93, 6639666081)], []⟩,
    ⟨[(2, 290), (4, 187), (12, 188), (16, 189), (28, 190)], [], [(73, 291)]⟩,
    ⟨[(4, 187), (12, 188), (16, 189), (28, 190)], [], [(73, 292)]⟩,
    ⟨[], [(97, 6639666081)], []⟩,
    ⟨[(37, 293)], [], []⟩,
    ⟨[(30, 294), (33, 295), (40, 76), (42, 77), (43, 55), (44, 79)], [], [(74, 296), (76, 297),
      (82, 298), (85, 299), (88, 300)]⟩,
    ⟨[], [(36, 281517573025)], []⟩,
    ⟨[(0, 122), (15, 27), (16, 10)], [], [(63, 301), (100, 124), (101, 125)]⟩,
    ⟨[], [(26, 1125906546516897)], []⟩,
    ⟨[], [(16, 1125906546516897)], []⟩,
    ⟨[], [(119, 35184372088832)], []⟩,
    ⟨[(0, 35), (6, 36), (10, 37), (11, 38), (12, 32), (15, 27), (16, 10), (17, 39), (21, 40),
      (36, 41), (40, 42), (42, 43), (43, 44)], [], [(96, 302), (97, 49), (100, 50), (101, 51),
      (102, 52)]⟩,
    ⟨[], [(120, 35184372088832)], []⟩,
    ⟨[], [(110, 70643622084608)], []⟩,
    ⟨[], [(114, 70643622084608)], []⟩,
    ⟨[(12, 303)], [(113, 70643622084608)], []⟩,
    ⟨[], [(106, 70643622084608)], []⟩,
    ⟨[], [(108, 70643622084608)], []⟩,
    ⟨[], [(102, 70643622084608)], []⟩,
    ⟨[(0, 35), (3, 147), (6, 36), (10, 37), (11, 38), (12, 32), (15, 27), (16, 10), (17, 39),
      (21, 40), (34, 148), (36, 41), (40, 42), (42, 43), (43, 44), (44, 149), (48, 151)], [],
      [(84, 304), (93, 153), (94, 46), (95, 47), (96, 48), (97, 49), (100, 50), (101, 51), (102,
      52)]⟩,
    ⟨[], [(101, 27496380628992)], []⟩,
    ⟨[(47, 305)], [], []⟩,
    ⟨[], [(117, 8589934592)], []⟩,
    ⟨[], [(165, 1953048528253857)], []⟩,
    ⟨[], [(164, 1953048528253857)], []⟩,
    ⟨[(0, 35), (6, 36), (10, 37), (11, 38), (12, 32), (15, 27), (16, 10), (17, 39), (21, 40),
      (36, 41), (40, 42), (42, 43), (43, 44)], [], [(96, 306), (97, 49), (100, 50), (101, 51),
      (102, 52)]⟩,
    ⟨[], [(167, 1953048528253857)], []⟩,
    ⟨[], [(174, 35459249995776)], []⟩,
    ⟨[], [(138, 141012366262272)], []⟩,
    ⟨[], [(135, 1953048528253857)], []⟩,
    ⟨[], [(129, 141012366262272)], []⟩,
    ⟨[(0, 35), (6, 36), (10, 37), (11, 38), (12, 32), (15, 27), (16, 10), (17, 39), (21, 40),
      (36, 41), (40, 42), (42, 43), (43, 44)], [], [(93, 307), (94, 46), (95, 47), (96, 48), (97,
      49), (100, 50), (101, 51), (102, 52)]⟩,
    ⟨[], [(131, 141012366262272)], []⟩,
    ⟨[], [(126, 141012366262272)], []⟩,
    ⟨[], [(87, 6639666081)], []⟩,
    ⟨[(4, 187), (12, 188), (16, 189), (28, 190)], [], [(73, 308)]⟩,
    ⟨[], [(95, 6639666081)], []⟩,
    ⟨[], [(96, 6639666081)], []⟩,
    ⟨[(30, 294), (33, 295), (40, 76), (42, 77), (43, 55), (44, 79)], [], [(74, 309), (76, 297),
      (82, 298), (85, 299), (88, 300)]⟩,
    ⟨[], [(76, 6639666081)], []⟩,
    ⟨[(0, 35), (6, 36), (10, 37), (11, 38), (12, 32), (15, 27), (16, 10), (17, 39), (21, 40),
      (36, 41), (40, 42), (42, 43), (43, 44)], [], [(96, 310), (97, 49), (100, 50), (101, 51),
      (102, 52)]⟩,
    ⟨[], [(65, 6639666081)], []⟩,
    ⟨[(49, 311)], [(75, 6639666081)], [(75, 312)]⟩,
    ⟨[(33, 313), (40, 76), (44, 79)], [], [(85, 314)]⟩,
    ⟨[(33, 315)], [], []⟩,
    ⟨[(33, 316), (40, 76), (42, 77), (44, 79)], [], [(82, 317), (85, 318)]⟩,
    ⟨[], [(37, 281517573025)], []⟩,
    ⟨[], [(118, 35184372088832)], []⟩,
    ⟨[], [(112, 70643622084608)], []⟩,
    ⟨[], [(103, 70643622084608)], []⟩,
    ⟨[], [(122, 18700287606784)], []⟩,
    ⟨[], [(163, 1953048528253857)], []⟩,
    ⟨[], [(127, 141012366262272)], []⟩,
    ⟨[], [(94, 6639666081)], []⟩,
    ⟨[], [(64, 6639666081)], []⟩,
    ⟨[], [(86, 562956593087393)], []⟩,
    ⟨[(30, 319), (33, 295), (40, 76), (42, 77), (43, 55), (44, 79)], [], [(76, 320), (82, 298),
      (85, 299), (88, 300)]⟩,
    ⟨[(49, 321)], [(73, 6639666081)], []⟩,
    ⟨[(0, 35), (6, 36), (10, 37), (11, 38), (12, 32), (15, 27), (16, 10), (17, 39), (21, 40),
      (36, 41), (40, 42), (42, 43), (43, 44)], [], [(96, 322), (97, 49), (100, 50), (101, 51),
      (102, 52)]⟩,
    ⟨[(33, 323)], [], []⟩,
    ⟨[(0, 35), (6, 36), (10, 37), (11, 38), (12, 32), (15, 27), (16, 10), (17, 39), (21, 40),
      (36, 41), (40, 42), (42, 43), (43, 44)], [], [(96, 324), (97, 49), (100, 50), (101, 51),
      (102, 52)]⟩,
    ⟨[(0, 35), (6, 36), (10, 37), (11, 38), (12, 32), (15, 27), (16, 10), (17, 39), (21, 40),
      (36, 41), (40, 42), (42, 43), (43, 44)], [], [(96, 325), (97, 49), (100, 50), (101, 51),
      (102, 52)]⟩,
    ⟨[(33, 326), (40, 76), (44, 79)], [], [(85, 327)]⟩,
    ⟨[(33, 328)], [], []⟩,
    ⟨[], [(74, 6639666081)], []⟩,
    ⟨[], [(77, 562956593087393)], []⟩,
    ⟨[(30, 329), (33, 295), (40, 76), (42, 77), (43, 55), (44, 79)], [], [(76, 330), (82, 298),
      (85, 299), (88, 300)]⟩,
    ⟨[], [(84, 562956593087393)], []⟩,
    ⟨[(0, 35), (6, 36), (10, 37), (11, 38), (12, 32), (15, 27), (16, 10), (17, 39), (21, 40),
      (36, 41), (40, 42), (42, 43), (43, 44)], [], [(96, 331), (97, 49), (100, 50), (101, 51),
      (102, 52)]⟩,
    ⟨[], [(85, 562956593087393)], []⟩,
    ⟨[], [(82, 562956593087393)], []⟩,
    ⟨[(0, 35), (6, 36), (10, 37), (11, 38), (12, 32), (15, 27), (16, 10), (17, 39), (21, 40),
      (36, 41), (40, 42), (42, 43), (43, 44)], [], [(96, 332), (97, 49), (100, 50), (101, 51),
      (102, 52)]⟩,
    ⟨[(33, 333)], [], []⟩,
    ⟨[(0, 35), (6, 36), (10, 37), (11, 38), (12, 32), (15, 27), (16, 10), (17, 39), (21, 40),
      (36, 41), (40, 42), (42, 43), (43, 44)], [], [(96, 334), (97, 49), (100, 50), (101, 51),
      (102, 52)]⟩,
    ⟨[], [(72, 6639666081)], []⟩,
    ⟨[], [(78, 562956593087393)], []⟩,
    ⟨[], [(83, 562956593087393)], []⟩,
    ⟨[], [(80, 562956593087393)], []⟩,
    ⟨[(0, 35), (6, 36), (10, 37), (11, 38), (12, 32), (15, 27), (16, 10), (17, 39), (21, 40),
      (36, 41), (40, 42), (42, 43), (43, 44)], [], [(96, 335), (97, 49), (100, 50), (101, 51),
      (102, 52)]⟩,
    ⟨[], [(81, 562956593087393)], []⟩,
    ⟨[], [(79, 562956593087393)], []⟩]

end RbsSynth.Signature
