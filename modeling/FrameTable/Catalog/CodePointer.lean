import FrameTable.Text.Case

namespace FrameTable.CodePointer

def mnemonics : List String :=
  ["Light0", "WeaponReady", "Lower", "Raise", "Punch", "ReFire", "FirePistol", "Light1", "FireShotgun",
    "Light2", "FireShotgun2", "CheckReload", "OpenShotgun2", "LoadShotgun2", "CloseShotgun2", "FireCGun",
    "GunFlash", "FireMissile", "Saw", "FirePlasma", "BFGsound", "FireBFG", "BFGSpray", "Explode", "Pain",
    "PlayerScream", "RavenPlayerScream", "Fall", "XScream", "Look", "Chase", "FaceTarget", "PosAttack",
    "Scream", "SPosAttack", "VileChase", "VileStart", "VileTarget", "VileAttack", "StartFire", "Fire",
    "FireCrackle", "Tracer", "SkelWhoosh", "SkelFist", "SkelMissile", "FatRaise", "FatAttack1",
    "FatAttack2", "FatAttack3", "BossDeath", "CPosAttack", "CPosRefire", "TroopAttack", "SargAttack",
    "HeadAttack", "BruisAttack", "SkullAttack", "Metal", "SpidRefire", "BabyMetal", "BspiAttack", "Hoof",
    "CyberAttack", "PainAttack", "PainDie", "KeenDie", "BrainPain", "BrainScream", "BrainDie", "BrainAwake",
    "BrainSpit", "SpawnSound", "SpawnFly", "BrainExplode", "Detonate", "Mushroom", "Die", "Spawn", "Turn",
    "Face", "Scratch", "PlaySound", "RandomJump", "LineEffect", "Nailbomb", "SpawnAbove", "SpawnGlitter",
    "SpawnEx", "StartScript", "StartScriptNamed", "PlayerStartScript", "SetFlags", "UnSetFlags",
    "BetaSkullAttack", "GenRefire", "FireCustomBullets", "FirePlayerMissile", "CustomPlayerMelee",
    "GenTracer", "BFG11KHit", "BouncingBFG", "BFGBurst", "FireOldBFG", "KeepChasing", "Stop", "PlayerThunk",
    "MissileAttack", "MissileSpread", "BulletAttack", "HealthJump", "CounterJump", "CounterJumpEx",
    "CounterSwitch", "CounterSwitchEx", "SetCounter", "CopyCounter", "CounterOp", "CounterDiceRoll",
    "SetTics", "AproxDistance", "ShowMessage", "RandomWalk", "TargetJump", "ThingSummon", "KillChildren",
    "WeaponCtrJump", "WeaponCtrJumpEx", "WeaponCtrSwitch", "WeaponSetCtr", "WeaponCopyCtr", "WeaponCtrOp",
    "AmbientThinker", "SteamSpawn", "EjectCasing", "CasingThrust", "JumpIfNoAmmo", "CheckReloadEx",
    "DetonateEx", "MushroomEx", "HideThing", "UnHideThing", "RestoreArtifact", "RestoreSpecialThing1",
    "RestoreSpecialThing2", "SargAttack12", "SelfDestruct", "TurnProjectile", "SubtractAmmo",
    "PainNukeSpec", "SorcNukeSpec", "SpawnTeleGlitter", "SpawnTeleGlitter2", "AccelGlitter", "InitKeyGizmo",
    "MummyAttack", "MummyAttack2", "MummySoul", "HticDrop", "HticTracer", "MummyFX1Seek", "ContMobjSound",
    "ESound", "ClinkAttack", "GhostOff", "WizardAtk1", "WizardAtk2", "WizardAtk3", "SorZap", "SorRise",
    "SorDSph", "SorDExp", "SorDBon", "SorSightSnd", "Srcr2Decide", "Srcr2Attack", "BlueSpark", "GenWizard",
    "Sor2DthInit", "Sor2DthLoop", "HticExplode", "HticBossDeath", "PodPain", "RemovePod", "MakePod",
    "KnightAttack", "DripBlood", "BeastAttack", "BeastPuff", "SnakeAttack", "SnakeAttack2", "Sor1Chase",
    "Sor1Pain", "Srcr1Attack", "SorcererRise", "VolcanoSet", "VolcanoBlast", "VolcBallImpact",
    "MinotaurAtk1", "MinotaurDecide", "MinotaurAtk2", "MinotaurAtk3", "MinotaurCharge", "MntrFloorFire",
    "LichFire", "LichWhirlwind", "LichAttack", "WhirlwindSeek", "LichIceImpact", "LichFireGrow",
    "ImpChargeAtk", "ImpMeleeAtk", "ImpMissileAtk", "ImpDeath", "ImpXDeath1", "ImpXDeath2", "ImpExplode",
    "PlayerSkull", "FlameSnd", "ClearSkin", "PhoenixPuff", "FlameEnd", "FloatPuff", "StaffAttackPL1",
    "StaffAttackPL2", "FireGoldWandPL1", "FireGoldWandPL2", "FireMacePL1", "MacePL1Check", "MaceBallImpact",
    "MaceBallImpact2", "FireMacePL2", "DeathBallImpact", "FireCrossbowPL1", "FireCrossbowPL2", "BoltSpark",
    "FireBlasterPL1", "FireSkullRodPL1", "FirePhoenixPL1", "InitPhoenixPL2", "FirePhoenixPL2",
    "GauntletAttack", "HticArtiTele", "HticSpawnFireBomb", "AlertMonsters", "CheckPlayerDone", "FadeIn",
    "FadeOut", "JumpIfTargetInLOS", "PlaySoundEx", "SetSpecial", "SetTranslucent", "Jump", "SeekerMissile",
    "FogSpawn", "FogMove", "NULL"]

def bare (mnemonic : String) : String :=
  match mnemonic.toList with
  | a :: '_' :: c :: rest => if a = 'A' ∨ a = 'a' then String.ofList (c :: rest) else mnemonic
  | _ => mnemonic

def find? (mnemonic : String) : Option Nat :=
  Text.keyword? mnemonics (bare mnemonic)

def name? (position : Nat) : Option String :=
  mnemonics[position]?

def null : Nat := mnemonics.length - 1

end FrameTable.CodePointer
