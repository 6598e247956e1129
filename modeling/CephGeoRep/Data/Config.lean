import CephGeoRep.Data.File

/-!
# Configuration fields

The fields of `Config` with the default member initialisers of the class.
-/

namespace CephGeoRep

/-- The private fields of `class Config`. -/
structure Config where
  logLevel : Int := -1
  nproc : Int := -1
  threads : Int := -1
  ignoreHidden : Bool := false
  ignoreWinLock : Bool := false
  ignoreVimSwap : Bool := false
  syncPeriodS : Int := -1
  propDelayMs : Int := -1
  lastRctimePath : CString := []
  execBin : CString := []
  execFlags : CString := []
  basePath : CString := []
  remoteUser : CString := []
  remoteHost : CString := []
  remoteDirectory : CString := []
  destinations : CString := []
deriving DecidableEq

end CephGeoRep
