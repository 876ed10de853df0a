import Anamnesis.Handle
import Anamnesis.Layout
import Anamnesis.Pool
import Anamnesis.FreeList
import Anamnesis.Exposure
import Anamnesis.Thread
import Anamnesis.Queue
import Anamnesis.QueueFifo
import Anamnesis.QueueThread
import Anamnesis.ThreadFreeList
import Anamnesis.Foreach
import Anamnesis.GenerationMax
import Anamnesis.Trace
import Anamnesis.TraceThreads
import Anamnesis.PoolCounters
import Anamnesis.QueueSpsc
import Anamnesis.QueueCounters
import Anamnesis.QueueWaitFree
