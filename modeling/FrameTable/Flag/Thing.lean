import FrameTable.Flag.Word

namespace FrameTable.Flag

def thingFlags : List Definition :=
  [⟨"SPECIAL", 0x00000001, .flags⟩,
    ⟨"SOLID", 0x00000002, .flags⟩,
    ⟨"SHOOTABLE", 0x00000004, .flags⟩,
    ⟨"NOSECTOR", 0x00000008, .flags⟩,
    ⟨"NOBLOCKMAP", 0x00000010, .flags⟩,
    ⟨"AMBUSH", 0x00000020, .flags⟩,
    ⟨"JUSTHIT", 0x00000040, .flags⟩,
    ⟨"JUSTATTACKED", 0x00000080, .flags⟩,
    ⟨"SPAWNCEILING", 0x00000100, .flags⟩,
    ⟨"NOGRAVITY", 0x00000200, .flags⟩,
    ⟨"DROPOFF", 0x00000400, .flags⟩,
    ⟨"PICKUP", 0x00000800, .flags⟩,
    ⟨"NOCLIP", 0x00001000, .flags⟩,
    ⟨"SLIDE", 0x00000100, .flags3⟩,
    ⟨"SLIDE", 0x00002000, .flags⟩,
    ⟨"FLOAT", 0x00004000, .flags⟩,
    ⟨"TELEPORT", 0x00008000, .flags⟩,
    ⟨"MISSILE", 0x00010000, .flags⟩,
    ⟨"DROPPED", 0x00020000, .flags⟩,
    ⟨"SHADOW", 0x00040000, .flags⟩,
    ⟨"NOBLOOD", 0x00080000, .flags⟩,
    ⟨"CORPSE", 0x00100000, .flags⟩,
    ⟨"INFLOAT", 0x00200000, .flags⟩,
    ⟨"COUNTKILL", 0x00400000, .flags⟩,
    ⟨"COUNTITEM", 0x00800000, .flags⟩,
    ⟨"SKULLFLY", 0x01000000, .flags⟩,
    ⟨"NOTDMATCH", 0x02000000, .flags⟩,
    ⟨"TRANSLATION", 0x04000000, .flags⟩,
    ⟨"TRANSLATION1", 0x04000000, .flags⟩,
    ⟨"TRANSLATION2", 0x08000000, .flags⟩,
    ⟨"UNUSED1", 0x08000000, .flags⟩,
    ⟨"UNUSED2", 0x10000000, .flags⟩,
    ⟨"UNUSED3", 0x20000000, .flags⟩,
    ⟨"UNUSED4", 0x40000000, .flags⟩,
    ⟨"TOUCHY", 0x10000000, .flags⟩,
    ⟨"BOUNCES", 0x20000000, .flags⟩,
    ⟨"FRIEND", 0x40000000, .flags⟩,
    ⟨"TRANSLUCENT", 0x80000000, .flags⟩,
    ⟨"LOGRAV", 0x00000001, .flags2⟩,
    ⟨"NOSPLASH", 0x00000002, .flags2⟩,
    ⟨"NOSTRAFE", 0x00000004, .flags2⟩,
    ⟨"NORESPAWN", 0x00000008, .flags2⟩,
    ⟨"ALWAYSRESPAWN", 0x00000010, .flags2⟩,
    ⟨"REMOVEDEAD", 0x00000020, .flags2⟩,
    ⟨"NOTHRUST", 0x00000040, .flags2⟩,
    ⟨"NOCROSS", 0x00000080, .flags2⟩,
    ⟨"JUMPDOWN", 0x00000100, .flags2⟩,
    ⟨"PUSHABLE", 0x00000200, .flags2⟩,
    ⟨"MAP07BOSS1", 0x00000400, .flags2⟩,
    ⟨"MAP07BOSS2", 0x00000800, .flags2⟩,
    ⟨"E1M8BOSS", 0x00001000, .flags2⟩,
    ⟨"E2M8BOSS", 0x00002000, .flags2⟩,
    ⟨"E3M8BOSS", 0x00004000, .flags2⟩,
    ⟨"BOSS", 0x00008000, .flags2⟩,
    ⟨"E4M6BOSS", 0x00010000, .flags2⟩,
    ⟨"E4M8BOSS", 0x00020000, .flags2⟩,
    ⟨"FOOTCLIP", 0x00040000, .flags2⟩,
    ⟨"FLOATBOB", 0x00080000, .flags2⟩,
    ⟨"DONTDRAW", 0x00100000, .flags2⟩,
    ⟨"SHORTMRANGE", 0x00200000, .flags2⟩,
    ⟨"LONGMELEE", 0x00400000, .flags2⟩,
    ⟨"RANGEHALF", 0x00800000, .flags2⟩,
    ⟨"HIGHERMPROB", 0x01000000, .flags2⟩,
    ⟨"CANTLEAVEFLOORPIC", 0x02000000, .flags2⟩,
    ⟨"SPAWNFLOAT", 0x04000000, .flags2⟩,
    ⟨"INVULNERABLE", 0x08000000, .flags2⟩,
    ⟨"DORMANT", 0x10000000, .flags2⟩,
    ⟨"SEEKERMISSILE", 0x20000000, .flags2⟩,
    ⟨"DEFLECTIVE", 0x40000000, .flags2⟩,
    ⟨"REFLECTIVE", 0x80000000, .flags2⟩,
    ⟨"GHOST", 0x00000001, .flags3⟩,
    ⟨"THRUGHOST", 0x00000002, .flags3⟩,
    ⟨"NODMGTHRUST", 0x00000004, .flags3⟩,
    ⟨"ACTSEESOUND", 0x00000008, .flags3⟩,
    ⟨"LOUDACTIVE", 0x00000010, .flags3⟩,
    ⟨"E5M8BOSS", 0x00000020, .flags3⟩,
    ⟨"DMGIGNORED", 0x00000040, .flags3⟩,
    ⟨"BOSSIGNORE", 0x00000080, .flags3⟩,
    ⟨"TELESTOMP", 0x00000200, .flags3⟩,
    ⟨"WINDTHRUST", 0x00000400, .flags3⟩,
    ⟨"FIREDAMAGE", 0x00000800, .flags3⟩,
    ⟨"KILLABLE", 0x00001000, .flags3⟩,
    ⟨"DEADFLOAT", 0x00002000, .flags3⟩,
    ⟨"NOTHRESHOLD", 0x00004000, .flags3⟩,
    ⟨"FLOORMISSILE", 0x00008000, .flags3⟩,
    ⟨"SUPERITEM", 0x00010000, .flags3⟩,
    ⟨"NOITEMRESP", 0x00020000, .flags3⟩,
    ⟨"SUPERFRIEND", 0x00040000, .flags3⟩,
    ⟨"INVULNCHARGE", 0x00080000, .flags3⟩,
    ⟨"EXPLOCOUNT", 0x00100000, .flags3⟩,
    ⟨"CANNOTPUSH", 0x00200000, .flags3⟩,
    ⟨"TLSTYLEADD", 0x00400000, .flags3⟩,
    ⟨"SPACMONSTER", 0x00800000, .flags3⟩,
    ⟨"SPACMISSILE", 0x01000000, .flags3⟩,
    ⟨"NOFRIENDDMG", 0x02000000, .flags3⟩,
    ⟨"3DDECORATION", 0x04000000, .flags3⟩,
    ⟨"ALWAYSFAST", 0x08000000, .flags3⟩,
    ⟨"PASSMOBJ", 0x10000000, .flags3⟩,
    ⟨"DONTOVERLAP", 0x20000000, .flags3⟩,
    ⟨"CYCLEALPHA", 0x40000000, .flags3⟩,
    ⟨"RIP", 0x80000000, .flags3⟩,
    ⟨"AUTOTRANSLATE", 0x00000001, .flags4⟩,
    ⟨"NORADIUSDMG", 0x00000002, .flags4⟩,
    ⟨"FORCERADIUSDMG", 0x00000004, .flags4⟩,
    ⟨"LOOKALLAROUND", 0x00000008, .flags4⟩,
    ⟨"NODAMAGE", 0x00000010, .flags4⟩,
    ⟨"SYNCHRONIZED", 0x00000020, .flags4⟩,
    ⟨"NORANDOMIZE", 0x00000040, .flags4⟩,
    ⟨"BRIGHT", 0x00000080, .flags4⟩,
    ⟨"FLY", 0x00000100, .flags4⟩,
    ⟨"NORADIUSHACK", 0x00000200, .flags4⟩,
    ⟨"NOSOUNDCUTOFF", 0x00000400, .flags4⟩,
    ⟨"RAVENRESPAWN", 0x00000800, .flags4⟩,
    ⟨"NOTSHAREWARE", 0x00001000, .flags4⟩,
    ⟨"NOTORQUE", 0x00002000, .flags4⟩,
    ⟨"ALWAYSTORQUE", 0x00004000, .flags4⟩,
    ⟨"NOZERODAMAGE", 0x00008000, .flags4⟩,
    ⟨"TLSTYLESUB", 0x00010000, .flags4⟩,
    ⟨"TOTALINVISIBLE", 0x00020000, .flags4⟩,
    ⟨"DRAWSBLOOD", 0x00040000, .flags4⟩,
    ⟨"SPACPUSHWALL", 0x00080000, .flags4⟩,
    ⟨"NOSPECIESINFIGHT", 0x00100000, .flags4⟩,
    ⟨"HARMSPECIESMISSILE", 0x00200000, .flags4⟩,
    ⟨"FRIENDFOEMISSILE", 0x00400000, .flags4⟩,
    ⟨"BLOODLESSIMPACT", 0x00800000, .flags4⟩,
    ⟨"HERETICBOUNCES", 0x01000000, .flags4⟩,
    ⟨"MONSTERPASS", 0x02000000, .flags4⟩,
    ⟨"LOWAIMPRIO", 0x04000000, .flags4⟩,
    ⟨"STICKYCARRY", 0x08000000, .flags4⟩,
    ⟨"SETTARGETONDEATH", 0x10000000, .flags4⟩,
    ⟨"SLIDEOVERTHINGS", 0x20000000, .flags4⟩,
    ⟨"UNSTEPPABLE", 0x40000000, .flags4⟩,
    ⟨"RANGEEIGHTH", 0x80000000, .flags4⟩]

end FrameTable.Flag
